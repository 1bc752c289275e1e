import SyntaxHighlight.Proofs.Grammar.Arena

/-!
The calls of which the compilation of a grammar consists. A call for a template makes a call for
each template that is placed within it or next to it, unless there is a mode that serves.
-/
namespace SyntaxHighlight

/-- A template that is to be compiled within the modes around it, and the modes compiled so far. -/
structure Call where
  template : Template
  around : List Enclosing
  arena : Arena

/-- What is known of a mode before its contents are compiled. -/
structure Opening where
  p : Prepared
  begin : String
  ending : Option Regex.Expr
  keywords : Option KeywordTable × Option Regex.Expr

namespace Call

variable (c : Call) (o : Opening)

def number : Nat := c.arena.slots.size

def within : List Enclosing :=
  ⟨c.template.place, c.number, (terminatorsOf o.p c.around).2, o.p.mode⟩ :: c.around

def opened : Arena :=
  (c.arena.reserve o.begin
    (if c.template.mode.dependsOnParent then none else c.template.place)).2

end Call

variable (g : Grammar) (scoring : KeywordScoring)

def Call.opening (c : Call) : Except GrammarError Opening := do
  let p ← c.template.mode.prepare (c.around.head?.map Enclosing.mode) g.extensions
  let begin ← beginOf g p c.around
  let ending ← (terminatorsOf p c.around).1.mapM fun source ↦ Pattern.compile source g.flags
  let _ ← p.illegalSource?.mapM fun source ↦ Pattern.compile source g.flags
  let keywords ← keywordsOf g scoring p.mode
  pure ⟨p, begin, ending, keywords⟩

def Call.answer (fuel : Nat) (c : Call) : Except GrammarError (Nat × Arena) :=
  compileMode g scoring fuel c.template c.around c.arena

theorem Call.answer_succ (fuel : Nat) (c : Call) :
    c.answer g scoring (fuel + 1) = (do
      let o ← c.opening g scoring
      let (contains, inner) ← Placing.placeEntries (compileMode g scoring fuel) g.modes c.template
        c.number (c.within o) 0 o.p.mode.contains (c.opened o)
      let (starts, outer) ← Placing.placeNext (compileMode g scoring fuel) c.template c.number
        c.around o.p.mode.starts inner
      let matcher ← Rule.Resumable.ofRules
        (rulesOf outer.begins contains (terminatorsOf o.p c.around).2 o.p.illegalSource?) g.flags
      pure (c.number, outer.finish c.number (o.p.compiled o.begin (terminatorsOf o.p c.around).2
        o.ending o.keywords contains starts matcher))) := by
  simp only [Call.answer, compileMode, Call.opening, bind_assoc, pure_bind]
  rfl

namespace Placing

variable (compile : Placing) (own : Nat) (around : List Enclosing) (named : Dictionary Mode)
  (t : Template)

/-- While templates are placed one after another, one of them has to be compiled, in the arena that
the ones before it have left. -/
inductive AsksAll : List Template → Arena → Template → Arena → Prop
  | here {u : Template} {ts : List Template} {a : Arena} :
      a.fitting? u around = none → u.makeshift? around = none → AsksAll (u :: ts) a u a
  | there {u v : Template} {ts : List Template} {a b d : Arena} {id : Nat} :
      compile.place own v around a = .ok (id, b) → AsksAll ts b u d → AsksAll (v :: ts) a u d

/-- The templates that an entry stands for, with number `i` among the contents of `t`. -/
def templatesOf (i : Nat) : Entry Mode → List Template
  | .self => []
  | .named name =>
    match named.get? name with
    | some mode => (Template.written mode ⟨some name, []⟩).alternatives
    | none => []
  | .inline mode => (t.child i mode).alternatives

inductive AsksEntries : Nat → List (Entry Mode) → Arena → Template → Arena → Prop
  | here {i : Nat} {entry : Entry Mode} {entries : List (Entry Mode)} {u : Template} {a d : Arena} :
      AsksAll compile own around (templatesOf named t i entry) a u d →
        AsksEntries i (entry :: entries) a u d
  | there {i : Nat} {entry : Entry Mode} {entries : List (Entry Mode)} {u : Template}
      {a b d : Arena} {ids : List Nat} :
      compile.placeEntry named t own around i entry a = .ok (ids, b) →
        AsksEntries (i + 1) entries b u d → AsksEntries i (entry :: entries) a u d

end Placing

/-- The calls that a call makes, with one level less. -/
inductive Leads (fuel : Nat) (c : Call) : Call → Prop
  | content {o : Opening} {u : Template} {b : Arena} :
      c.opening g scoring = .ok o →
      Placing.AsksEntries (compileMode g scoring fuel) c.number (c.within o) g.modes c.template 0
        o.p.mode.contains (c.opened o) u b →
      Leads fuel c ⟨u, c.within o, b⟩
  | next {o : Opening} {contains : List Nat} {inner : Arena} {mode : Mode} :
      c.opening g scoring = .ok o →
      Placing.placeEntries (compileMode g scoring fuel) g.modes c.template c.number (c.within o) 0
        o.p.mode.contains (c.opened o) = .ok (contains, inner) →
      o.p.mode.starts = some mode → c.around ≠ [] →
      inner.fitting? (c.template.next mode) c.around = none →
      (c.template.next mode).makeshift? c.around = none →
      Leads fuel c ⟨c.template.next mode, c.around, inner⟩

/-- The calls that come of a call with so many levels, each with the levels that are left for it. -/
inductive Within (n : Nat) (c : Call) : Nat → Call → Prop
  | refl : Within n c n c
  | step {fuel : Nat} {d e : Call} :
      Within n c (fuel + 1) d → Leads g scoring fuel d e → Within n c fuel e

def Grammar.firstCall : Call := ⟨.root g.rootMode, [], {}⟩

variable {g : Grammar} {scoring : KeywordScoring}

theorem Call.opening_eq_ok {c : Call} {o : Opening} (h : c.opening g scoring = .ok o) :
    c.template.mode.prepare (c.around.head?.map Enclosing.mode) g.extensions = .ok o.p ∧
      beginOf g o.p c.around = .ok o.begin ∧
      (terminatorsOf o.p c.around).1.mapM (fun source ↦ Pattern.compile source g.flags) =
        .ok o.ending ∧
      keywordsOf g scoring o.p.mode = .ok o.keywords := by
  obtain ⟨p, hp, h⟩ := bind_eq_ok.1 h
  obtain ⟨begin, hbegin, h⟩ := bind_eq_ok.1 h
  obtain ⟨ending, hending, h⟩ := bind_eq_ok.1 h
  obtain ⟨_, -, h⟩ := bind_eq_ok.1 h
  obtain ⟨keywords, hkeywords, h⟩ := bind_eq_ok.1 h
  cases h
  exact ⟨hp, hbegin, hending, hkeywords⟩

theorem Call.answer_eq_ok {fuel id : Nat} {c : Call} {a' : Arena}
    (h : c.answer g scoring (fuel + 1) = .ok (id, a')) :
    ∃ o contains inner starts outer matcher, c.opening g scoring = .ok o ∧
      Placing.placeEntries (compileMode g scoring fuel) g.modes c.template c.number (c.within o) 0
        o.p.mode.contains (c.opened o) = .ok (contains, inner) ∧
      Placing.placeNext (compileMode g scoring fuel) c.template c.number c.around o.p.mode.starts
        inner = .ok (starts, outer) ∧
      Rule.Resumable.ofRules (rulesOf outer.begins contains (terminatorsOf o.p c.around).2
        o.p.illegalSource?) g.flags = .ok matcher ∧
      id = c.number ∧
      a' = outer.finish c.number (o.p.compiled o.begin (terminatorsOf o.p c.around).2 o.ending
        o.keywords contains starts matcher) := by
  rw [answer_succ] at h
  obtain ⟨o, ho, h⟩ := bind_eq_ok.1 h
  obtain ⟨⟨contains, inner⟩, hcontains, h⟩ := bind_eq_ok.1 h
  obtain ⟨⟨starts, outer⟩, hstarts, h⟩ := bind_eq_ok.1 h
  obtain ⟨matcher, hmatcher, h⟩ := bind_eq_ok.1 h
  cases h
  exact ⟨o, contains, inner, starts, outer, matcher, ho, hcontains, hstarts, hmatcher, rfl, rfl⟩

/-! A property of the arena that every call keeps is there whenever a call is made. -/

namespace Placing

variable {compile : Placing} {own : Nat} {around : List Enclosing} {named : Dictionary Mode}
  {t : Template} {P : Arena → Prop}

/-- What is noted of modes beside their slots does not count for a property. -/
def Overlooks (P : Arena → Prop) : Prop :=
  ∀ ⦃a : Arena⦄ (crowded : List (Nat × Nat)) (selves : List Nat), P a →
    P { a with crowded, selves }

theorem place_along (hP : Overlooks P) {u : Template} {a a' : Arena} {id : Nat}
    (hstep : a.fitting? u around = none → u.makeshift? around = none →
      compile u around a = .ok (id, a') → P a')
    (ha : P a) (h : compile.place own u around a = .ok (id, a')) : P a' := by
  unfold place at h
  split at h
  · cases h
    exact ha
  · split at h
    · cases h
      exact hP _ a.selves ha
    · exact hstep ‹_› ‹_› h

theorem asksAll_along (hP : Overlooks P) {ts : List Template} {a : Arena}
    (hstep : ∀ ⦃u b id b'⦄, AsksAll compile own around ts a u b → P b →
      compile u around b = .ok (id, b') → P b') (ha : P a) :
    (∀ ⦃u b⦄, AsksAll compile own around ts a u b → P b) ∧
      ∀ ⦃ids a'⦄, compile.placeAll own around ts a = .ok (ids, a') → P a' := by
  -- Both at once: what is there after a template is what is there before the next one.
  induction ts generalizing a with
  | nil =>
    refine ⟨fun u b h ↦ ?_, fun ids a' h ↦ ?_⟩
    · cases h
    · cases h
      exact ha
  | cons v ts ih =>
    have hplace {id : Nat} {b : Arena} (hb : compile.place own v around a = .ok (id, b)) : P b :=
      place_along hP (fun hfit hmakeshift hcompile ↦
        hstep (.here hfit hmakeshift) ha hcompile) ha hb
    have hrest {id : Nat} {b : Arena} (hb : compile.place own v around a = .ok (id, b)) :=
      ih (fun _ _ _ _ hasks ↦ hstep (.there hb hasks)) (hplace hb)
    refine ⟨fun u b h ↦ ?_, fun ids a' h ↦ ?_⟩
    · cases h with
      | here => exact ha
      | there hb hasks => exact (hrest hb).1 hasks
    · obtain ⟨⟨id, b⟩, hb, h⟩ := bind_eq_ok.1 h
      obtain ⟨⟨ids', b'⟩, hb', h⟩ := bind_eq_ok.1 h
      cases h
      exact (hrest hb).2 hb'

theorem placeEntry_eq_ok {i : Nat} {entry : Entry Mode} {a a' : Arena} {ids : List Nat}
    (h : compile.placeEntry named t own around i entry a = .ok (ids, a')) :
    (entry = .self ∧ ids = [own] ∧ a' = { a with selves := own :: a.selves }) ∨
      compile.placeAll own around (templatesOf named t i entry) a = .ok (ids, a') := by
  cases entry with
  | self =>
    cases h
    exact .inl ⟨rfl, rfl, rfl⟩
  | named name =>
    simp only [placeEntry, templatesOf] at h ⊢
    cases hmode : named.get? name with
    | some mode =>
      rw [hmode] at h
      exact .inr h
    | none =>
      rw [hmode] at h
      cases h
  | inline mode => exact .inr h

theorem asksEntries_along (hP : Overlooks P) {entries : List (Entry Mode)} {i : Nat} {a : Arena}
    (hstep : ∀ ⦃u b id b'⦄, AsksEntries compile own around named t i entries a u b → P b →
      compile u around b = .ok (id, b') → P b') (ha : P a) :
    (∀ ⦃u b⦄, AsksEntries compile own around named t i entries a u b → P b) ∧
      ∀ ⦃ids a'⦄, compile.placeEntries named t own around i entries a = .ok (ids, a') → P a' := by
  induction entries generalizing i a with
  | nil =>
    refine ⟨fun u b h ↦ ?_, fun ids a' h ↦ ?_⟩
    · cases h
    · cases h
      exact ha
  | cons entry entries ih =>
    obtain ⟨hasks, hall⟩ := asksAll_along hP (fun _ _ _ _ h ↦ hstep (.here h)) ha
    have hentry {ids : List Nat} {b : Arena}
        (hb : compile.placeEntry named t own around i entry a = .ok (ids, b)) : P b := by
      obtain ⟨-, -, rfl⟩ | hb := placeEntry_eq_ok hb
      · exact hP a.crowded _ ha
      · exact hall hb
    have hrest {ids : List Nat} {b : Arena}
        (hb : compile.placeEntry named t own around i entry a = .ok (ids, b)) :=
      ih (fun _ _ _ _ hasks ↦ hstep (.there hb hasks)) (hentry hb)
    refine ⟨fun u b h ↦ ?_, fun ids a' h ↦ ?_⟩
    · cases h with
      | here h => exact hasks h
      | there hb h => exact (hrest hb).1 h
    · obtain ⟨⟨first, b⟩, hb, h⟩ := bind_eq_ok.1 h
      obtain ⟨⟨others, b'⟩, hb', h⟩ := bind_eq_ok.1 h
      cases h
      exact (hrest hb).2 hb'

theorem placeNext_eq_ok {starts : Option Mode} {a a' : Arena} {next : Option Nat}
    (h : compile.placeNext t own around starts a = .ok (next, a')) :
    ((starts = none ∨ around = []) ∧ next = none ∧ a' = a) ∨
      ∃ mode id, starts = some mode ∧ around ≠ [] ∧ next = some id ∧
        compile.place own (t.next mode) around a = .ok (id, a') := by
  unfold placeNext at h
  split at h
  · split at h
    · rename_i haround
      cases h
      exact .inl ⟨.inr (List.isEmpty_iff.1 haround), rfl, rfl⟩
    · rename_i haround
      obtain ⟨⟨id, b⟩, hb, h⟩ := bind_eq_ok.1 h
      cases h
      exact .inr ⟨_, id, rfl, by simpa using haround, rfl, hb⟩
  · cases h
    exact .inl ⟨.inl rfl, rfl, rfl⟩

end Placing

/-- What the calls that a call makes keep, from the moment when its number has been taken, is there
before each of them and after all of them. -/
theorem Call.along {P : Arena → Prop} (hP : Placing.Overlooks P) {fuel : Nat} {c : Call}
    (hopened : ∀ o, c.opening g scoring = .ok o → P (c.opened o))
    (hstep : ∀ ⦃d id a'⦄, Leads g scoring fuel c d → P d.arena →
      d.answer g scoring fuel = .ok (id, a') → P a') :
    (∀ ⦃d⦄, Leads g scoring fuel c d → P d.arena) ∧
      ∀ ⦃o contains inner starts outer⦄, c.opening g scoring = .ok o →
        Placing.placeEntries (compileMode g scoring fuel) g.modes c.template c.number (c.within o)
          0 o.p.mode.contains (c.opened o) = .ok (contains, inner) →
        Placing.placeNext (compileMode g scoring fuel) c.template c.number c.around
          o.p.mode.starts inner = .ok (starts, outer) → P inner ∧ P outer := by
  have hentries {o : Opening} (ho : c.opening g scoring = .ok o) :=
    Placing.asksEntries_along hP
      (fun _ _ _ _ hasks hb hcompile ↦ hstep (.content ho hasks) hb hcompile) (hopened o ho)
  refine ⟨fun d hd ↦ ?_, fun o contains inner starts outer ho hcontains hstarts ↦ ?_⟩
  · cases hd with
    | content ho hasks => exact (hentries ho).1 hasks
    | next ho hcontains => exact (hentries ho).2 hcontains
  · have hinner := (hentries ho).2 hcontains
    refine ⟨hinner, ?_⟩
    obtain ⟨-, -, rfl⟩ | ⟨mode, id, hmode, haround, -, hplace⟩ := Placing.placeNext_eq_ok hstarts
    · exact hinner
    · exact Placing.place_along hP (fun hfit hmakeshift hcompile ↦
        hstep (.next ho hcontains hmode haround hfit hmakeshift) hinner hcompile) hinner hplace

/-- Modes get numbers, and what is known of them by their numbers or places stays. -/
structure Arena.Le (a b : Arena) : Prop where
  size : a.slots.size ≤ b.slots.size
  begins : a.begins.toList <+: b.begins.toList
  shared : a.shared <:+ b.shared

namespace Arena.Le

variable {a b d : Arena}

theorem refl (a : Arena) : Le a a := ⟨Nat.le_refl _, List.prefix_rfl, List.suffix_rfl⟩

theorem trans (h : Le a b) (h' : Le b d) : Le a d :=
  ⟨Nat.le_trans h.size h'.size, h.begins.trans h'.begins, h.shared.trans h'.shared⟩

theorem overlooks (a : Arena) : Placing.Overlooks (Le a) := fun _ _ _ h ↦ ⟨h.size, h.begins, h.shared⟩

theorem finish (a : Arena) (id : Nat) (m : CompiledMode) : Le a (a.finish id m) :=
  ⟨by simp [Arena.finish], List.prefix_rfl, List.suffix_rfl⟩

end Arena.Le

theorem Call.opened_size (c : Call) (o : Opening) : (c.opened o).slots.size = c.number + 1 := by
  simp [opened, Arena.reserve, number]

theorem Call.le_opened (c : Call) (o : Opening) : c.arena.Le (c.opened o) where
  size := by rw [opened_size, number]; omega
  begins := by simp [opened, Arena.reserve]
  shared := List.suffix_append _ _

/-- A mode that has nothing to do with its parent is known by its place as soon as it has a
number. -/
theorem Call.mem_opened {c : Call} {place : Place} (hplace : c.template.place = some place)
    (hfree : c.template.mode.dependsOnParent = false) (o : Opening) :
    (place, c.number) ∈ (c.opened o).shared := by
  simp [opened, Arena.reserve, hfree, hplace, number]

theorem Call.answer_le {fuel id : Nat} {c : Call} {a' : Arena}
    (h : c.answer g scoring fuel = .ok (id, a')) :
    c.arena.Le a' ∧ ∃ o, c.opening g scoring = .ok o ∧ (c.opened o).Le a' := by
  induction fuel generalizing c id a' with
  | zero => cases h
  | succ fuel ih =>
    obtain ⟨o, contains, inner, starts, outer, matcher, ho, hcontains, hstarts, -, -, rfl⟩ :=
      answer_eq_ok h
    have halong := c.along (Arena.Le.overlooks (c.opened o))
      (fun o' (ho' : c.opening g scoring = .ok o') ↦ by cases ho.symm.trans ho'; exact .refl _)
      (fun d id a' _ hd hanswer ↦ hd.trans (ih hanswer).1)
    have houter := (halong.2 ho hcontains hstarts).2
    exact ⟨((c.le_opened o).trans houter).trans (.finish ..), o, ho, houter.trans (.finish ..)⟩

/-! Calls are made one after another, and each is answered before the next one is made. -/

namespace Placing

variable {compile : Placing} {own : Nat} {around : List Enclosing} {named : Dictionary Mode}
  {t u v : Template} {a a' b d : Arena}

def Grows (compile : Placing) : Prop :=
  ∀ ⦃t around a id a'⦄, compile t around a = .ok (id, a') → a.Le a'

/-- A template has been compiled before the arena has come so far. -/
def Ready (compile : Placing) (around : List Enclosing) (u : Template) (b d : Arena) : Prop :=
  ∃ id b', compile u around b = .ok (id, b') ∧ b'.Le d

theorem Ready.mono (h : Ready compile around u b d) (hd : d.Le a) : Ready compile around u b a := by
  obtain ⟨id, b', hb, hle⟩ := h
  exact ⟨id, b', hb, hle.trans hd⟩

theorem place_unserved (hfit : a.fitting? u around = none)
    (hmakeshift : u.makeshift? around = none) :
    compile.place own u around a = compile u around a := by
  simp only [place, hfit, hmakeshift]

theorem placeAll_le (h : Grows compile) {ts : List Template} {ids : List Nat}
    (ha : compile.placeAll own around ts a = .ok (ids, a')) : a.Le a' :=
  (asksAll_along (Arena.Le.overlooks a) (fun _ _ _ _ _ hb hcompile ↦ hb.trans (h hcompile))
    (.refl a)).2 ha

theorem AsksAll.le (h : Grows compile) {ts : List Template}
    (hb : AsksAll compile own around ts a u b) : a.Le b :=
  (asksAll_along (Arena.Le.overlooks a) (fun _ _ _ _ _ hb hcompile ↦ hb.trans (h hcompile))
    (.refl a)).1 hb

theorem AsksAll.ready (h : Grows compile) {ts : List Template} {ids : List Nat}
    (hb : AsksAll compile own around ts a u b)
    (ha : compile.placeAll own around ts a = .ok (ids, a')) : Ready compile around u b a' := by
  induction hb generalizing ids with
  | here hfit hmakeshift =>
    obtain ⟨⟨id, b⟩, hb, ha⟩ := bind_eq_ok.1 ha
    obtain ⟨⟨others, b'⟩, hb', ha⟩ := bind_eq_ok.1 ha
    cases ha
    rw [place_unserved hfit hmakeshift] at hb
    exact ⟨id, b, hb, placeAll_le h hb'⟩
  | there hplace _ ih =>
    obtain ⟨⟨id, b⟩, hb, ha⟩ := bind_eq_ok.1 ha
    obtain ⟨⟨others, b'⟩, hb', ha⟩ := bind_eq_ok.1 ha
    cases ha
    cases hplace.symm.trans hb
    exact ih hb'

/-- Of two templates in a row, one is compiled before the other one. -/
theorem AsksAll.ordered (h : Grows compile) {ts : List Template}
    (hb : AsksAll compile own around ts a u b) (hd : AsksAll compile own around ts a v d) :
    (u = v ∧ b = d) ∨ Ready compile around u b d ∨ Ready compile around v d b := by
  -- Down the row until the first of the two is met.
  induction hb with
  | here hfit hmakeshift =>
    cases hd with
    | here => exact .inl ⟨rfl, rfl⟩
    | there hplace hd =>
      rw [place_unserved hfit hmakeshift] at hplace
      exact .inr (.inl ⟨_, _, hplace, hd.le h⟩)
  | there hplace hb ih =>
    cases hd with
    | here hfit hmakeshift =>
      rw [place_unserved hfit hmakeshift] at hplace
      exact .inr (.inr ⟨_, _, hplace, hb.le h⟩)
    | there hplace' hd =>
      cases hplace.symm.trans hplace'
      exact ih hd

theorem placeEntries_le (h : Grows compile) {i : Nat} {entries : List (Entry Mode)}
    {ids : List Nat} (ha : compile.placeEntries named t own around i entries a = .ok (ids, a')) :
    a.Le a' :=
  (asksEntries_along (Arena.Le.overlooks a) (fun _ _ _ _ _ hb hcompile ↦ hb.trans (h hcompile))
    (.refl a)).2 ha

theorem AsksEntries.le (h : Grows compile) {i : Nat} {entries : List (Entry Mode)}
    (hb : AsksEntries compile own around named t i entries a u b) : a.Le b :=
  (asksEntries_along (Arena.Le.overlooks a) (fun _ _ _ _ _ hb hcompile ↦ hb.trans (h hcompile))
    (.refl a)).1 hb

theorem place_le (h : Grows compile) {id : Nat} (ha : compile.place own t around a = .ok (id, a')) :
    a.Le a' :=
  place_along (Arena.Le.overlooks a) (fun _ _ hcompile ↦ h hcompile) (.refl a) ha

theorem placeNext_le (h : Grows compile) {starts : Option Mode} {next : Option Nat}
    (ha : compile.placeNext t own around starts a = .ok (next, a')) : a.Le a' := by
  obtain ⟨-, -, rfl⟩ | ⟨mode, id, -, -, -, hplace⟩ := placeNext_eq_ok ha
  · exact .refl _
  · exact place_le h hplace

/-- An entry that asks for a template has been placed when that has been compiled. -/
theorem AsksAll.ready_entry (h : Grows compile) {i : Nat} {entry : Entry Mode} {ids : List Nat}
    (hb : AsksAll compile own around (templatesOf named t i entry) a u b)
    (ha : compile.placeEntry named t own around i entry a = .ok (ids, a')) :
    Ready compile around u b a' := by
  obtain ⟨rfl, -⟩ | ha := placeEntry_eq_ok ha
  · cases hb
  · exact hb.ready h ha

theorem AsksEntries.ready (h : Grows compile) {i : Nat} {entries : List (Entry Mode)}
    {ids : List Nat} (hb : AsksEntries compile own around named t i entries a u b)
    (ha : compile.placeEntries named t own around i entries a = .ok (ids, a')) :
    Ready compile around u b a' := by
  induction hb generalizing ids with
  | here hb =>
    obtain ⟨⟨first, b⟩, hfirst, ha⟩ := bind_eq_ok.1 ha
    obtain ⟨⟨others, b'⟩, hothers, ha⟩ := bind_eq_ok.1 ha
    cases ha
    exact (hb.ready_entry h hfirst).mono (placeEntries_le h hothers)
  | there hentry _ ih =>
    obtain ⟨⟨first, b⟩, hfirst, ha⟩ := bind_eq_ok.1 ha
    obtain ⟨⟨others, b'⟩, hothers, ha⟩ := bind_eq_ok.1 ha
    cases ha
    cases hentry.symm.trans hfirst
    exact ih hothers

theorem AsksEntries.ordered (h : Grows compile) {i : Nat} {entries : List (Entry Mode)}
    (hb : AsksEntries compile own around named t i entries a u b)
    (hd : AsksEntries compile own around named t i entries a v d) :
    (u = v ∧ b = d) ∨ Ready compile around u b d ∨ Ready compile around v d b := by
  induction hb with
  | here hb =>
    cases hd with
    | here hd => exact hb.ordered h hd
    | there hentry hd => exact .inr (.inl ((hb.ready_entry h hentry).mono (hd.le h)))
  | there hentry hb ih =>
    cases hd with
    | here hd => exact .inr (.inr ((hd.ready_entry h hentry).mono (hb.le h)))
    | there hentry' hd =>
      cases hentry.symm.trans hentry'
      exact ih hd

end Placing

theorem compileMode_grows (fuel : Nat) : (compileMode g scoring fuel).Grows :=
  fun t around a _ _ h ↦ (Call.answer_le (c := ⟨t, around, a⟩) h).1

/-- One call has been answered when the other one is made. -/
def Call.Before (g : Grammar) (scoring : KeywordScoring) (fuel : Nat) (c d : Call) : Prop :=
  ∃ id a', c.answer g scoring fuel = .ok (id, a') ∧ a'.Le d.arena

variable {fuel : Nat} {c d e : Call}

theorem Leads.ordered (hd : Leads g scoring fuel c d) (he : Leads g scoring fuel c e) :
    d = e ∨ d.Before g scoring fuel e ∨ e.Before g scoring fuel d := by
  have hgrows : (compileMode g scoring fuel).Grows := compileMode_grows fuel
  cases hd with
  | content ho hb =>
    cases he with
    | content ho' hd =>
      cases ho.symm.trans ho'
      obtain ⟨rfl, rfl⟩ | hready := hb.ordered hgrows hd
      · exact .inl rfl
      · exact .inr hready
    | next ho' hcontains =>
      -- All contents have been compiled when the mode that comes next is.
      cases ho.symm.trans ho'
      exact .inr (.inl (hb.ready hgrows hcontains))
  | next ho hcontains hmode =>
    cases he with
    | content ho' hd =>
      cases ho.symm.trans ho'
      exact .inr (.inr (hd.ready hgrows hcontains))
    | next ho' hcontains' hmode' =>
      cases ho.symm.trans ho'
      cases hcontains.symm.trans hcontains'
      cases hmode.symm.trans hmode'
      exact .inl rfl

/-- A call is only made for a template for which no mode serves. -/
theorem Leads.unserved (h : Leads g scoring fuel c d) :
    d.arena.fitting? d.template d.around = none ∧ d.template.makeshift? d.around = none := by
  have hall : ∀ {compile : Placing} {own around ts a u b},
      Placing.AsksAll compile own around ts a u b →
        b.fitting? u around = none ∧ u.makeshift? around = none := by
    intro compile own around ts a u b h
    induction h with
    | here hfit hmakeshift => exact ⟨hfit, hmakeshift⟩
    | there _ _ ih => exact ih
  have hentries : ∀ {compile : Placing} {own around named t i entries a u b},
      Placing.AsksEntries compile own around named t i entries a u b →
        b.fitting? u around = none ∧ u.makeshift? around = none := by
    intro compile own around named t i entries a u b h
    induction h with
    | here h => exact hall h
    | there _ _ ih => exact ih
  cases h with
  | content _ h => exact hentries h
  | next _ _ _ _ hfit hmakeshift => exact ⟨hfit, hmakeshift⟩

/-- Once a call is made, the calls that it makes come after the number has been taken. -/
theorem Leads.le (h : Leads g scoring fuel c d) :
    ∃ o, c.opening g scoring = .ok o ∧ (c.opened o).Le d.arena := by
  have hgrows : (compileMode g scoring fuel).Grows := compileMode_grows fuel
  cases h with
  | content ho h => exact ⟨_, ho, h.le hgrows⟩
  | next ho hcontains => exact ⟨_, ho, Placing.placeEntries_le hgrows hcontains⟩

end SyntaxHighlight
