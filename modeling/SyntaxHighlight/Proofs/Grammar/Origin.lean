import SyntaxHighlight.Proofs.Grammar.Spliced

/-!
Where the modes of a compiled grammar stem from. Whatever a grammar wraps, the templates of its
calls are written in it, and a place tells the template; so a number that serves for a template is
that of a call for the same template.
-/
namespace SyntaxHighlight

variable {g : Grammar} {scoring : KeywordScoring} {n l i : Nat} {c d : Call} {q : Place}
  {t u : Template} {m : Mode}

/-! What the plain form of a mode leads to. -/

namespace Mode

variable {parent parent' : Option Mode} {p : Prepared}

def holding (inner : Mode) : Mode := { relevance := some 0, contains := [.inline inner] }

theorem prepare_before {before : String} (hb : m.beforeMatch = some before)
    (h : m.prepare parent [] = .ok p) : ∃ inner, p.mode.contains = [] ∧
      p.mode.starts = some (holding inner) ∧ inner.contains = m.contains ∧
      inner.starts = m.starts ∧ inner.variants = m.variants := by
  obtain ⟨named, wrapped, changed, begin, ending, hnamed, hwrapped, hchanged, hmode, -, -⟩ :=
    prepare_eq_ok h
  have halike := (alike_nameScope m).trans (alike_takeMatching hnamed)
  have hbefore := halike.beforeMatch.trans hb
  cases hchanged
  simp only [wrapBeforeMatch, hbefore] at hwrapped
  split at hwrapped
  · cases hwrapped
  · cases hwrapped
    refine ⟨{ named with beforeMatch := none, endsParent := true }, ?_, ?_, halike.contains,
      halike.starts, halike.variants⟩
    · rw [hmode]
      exact (alike_spelledOut _ _).contains
    · rw [hmode]
      exact (alike_spelledOut _ _).starts

/-- All that matters of the parent is whether there is one. -/
theorem prepare_parent (h : parent.isSome = parent'.isSome) :
    m.prepare parent [] = m.prepare parent' [] := by
  simp only [prepare, extended, List.foldlM_nil, h]

/-- What a mode and its variants contain is written within one place of the grammar, and what they
start within another one. -/
structure WrittenIn (m : Mode) (g : Grammar) (contents following : Place) : Prop where
  contains : ∀ i m', m.contains[i]? = some (.inline m') →
    g.modeAt? (contents.step (.child i)) = some m'
  starts : ∀ m', m.starts = some m' → g.modeAt? (following.step .start) = some m'
  variants : ∀ i v, m.variants[i]? = some v → g.modeAt? (contents.step (.variant i)) = some v ∧
    g.modeAt? (following.step (.variant i)) = some v

theorem writtenIn_of_modeAt? (hm : g.modeAt? q = some m) : m.WrittenIn g q q where
  contains _ _ h := Grammar.modeAt?_child hm h
  starts _ h := Grammar.modeAt?_start hm h
  variants _ _ h := ⟨Grammar.modeAt?_variant hm h, Grammar.modeAt?_variant hm h⟩

theorem WrittenIn.congr {m' : Mode} {contents following : Place}
    (h : m.WrittenIn g contents following) (hcontains : m'.contains = m.contains)
    (hstarts : m'.starts = m.starts) (hvariants : m'.variants = m.variants) :
    m'.WrittenIn g contents following where
  contains i x hx := h.contains i x (hcontains ▸ hx)
  starts x hx := h.starts x (hstarts ▸ hx)
  variants i v hv := h.variants i v (hvariants ▸ hv)

end Mode

/-! What is known of the template of a call. -/

/-- A template that stems from what is written in the grammar, and whose place tells that it is this
template. One that is made up holds a mode that stems from there. -/
structure Template.Stems (t : Template) (g : Grammar) : Prop where
  written : t.madeUp = false → t.mode.WrittenIn g t.contents t.following
  held : t.madeUp = true → ∃ inner, t.mode = .holding inner ∧
    inner.WrittenIn g t.contents t.following
  place : ∀ q, t.place = some q → g.templateAt? q = some t

namespace Template

/-- A variant contains what it says, or else what the mode contains that has it. -/
theorem writtenIn_variantAt (h : t.mode.WrittenIn g t.contents t.following) {v : Mode}
    (hv : t.mode.variants[i]? = some v) :
    (t.variantAt i v).mode.WrittenIn g (t.variantAt i v).contents (t.variantAt i v).following := by
  obtain ⟨hcontents, hfollowing⟩ := h.variants i v hv
  refine ⟨fun j m hm ↦ ?_, fun m hm ↦ ?_, fun j w hw ↦ ?_⟩
  · simp only [variantAt, Mode.overlay] at hm ⊢
    split at hm
    · rename_i hempty
      rw [if_pos hempty]
      exact h.contains j m hm
    · rename_i hempty
      rw [if_neg hempty]
      exact Grammar.modeAt?_child hcontents hm
  · simp only [variantAt, Mode.overlay] at hm ⊢
    cases hstarts : v.starts with
    | none =>
      rw [hstarts] at hm
      exact h.starts m hm
    | some next =>
      rw [hstarts] at hm
      exact Grammar.modeAt?_start hfollowing (hstarts.trans hm)
  · cases hw

theorem stems_alternatives (hmade : t.madeUp = false)
    (h : t.mode.WrittenIn g t.contents t.following)
    (hplace : ∀ u ∈ t.alternatives, ∀ q, u.place = some q → g.templateAt? q = some u)
    (hu : u ∈ t.alternatives) : u.Stems g := by
  have hwritten : u.madeUp = false ∧ u.mode.WrittenIn g u.contents u.following := by
    unfold alternatives at hu
    split at hu
    · cases List.mem_singleton.1 hu
      exact ⟨hmade, h⟩
    · obtain ⟨i, hi, rfl⟩ := List.mem_mapIdx.1 hu
      exact ⟨hmade, writtenIn_variantAt h (List.getElem?_eq_getElem hi)⟩
  exact ⟨fun _ ↦ hwritten.2, fun hheld ↦ Bool.noConfusion (hwritten.1.symm.trans hheld),
    hplace u hu⟩

theorem stems_written (hm : g.modeAt? q = some m) (hq : g.templateAt? q = some (written m q))
    (hu : u ∈ (written m q).alternatives) : u.Stems g := by
  refine stems_alternatives rfl (Mode.writtenIn_of_modeAt? hm) (fun u hu r hr ↦ ?_) hu
  obtain ⟨r', hr', hplaced⟩ := placed_alternatives hm hq hu
  cases hr.symm.trans hr'
  exact hplaced

theorem stems_root (g : Grammar) : (root g.rootMode).Stems g where
  written _ := Mode.writtenIn_of_modeAt? rfl
  held := nofun
  place := nofun

theorem stems_named {name : String} (hm : g.modes.get? name = some m)
    (hu : u ∈ (written m ⟨some name, []⟩).alternatives) : u.Stems g := by
  have hat : g.modeAt? ⟨some name, []⟩ = some m := hm
  refine stems_written hat ?_ hu
  simp only [Grammar.templateAt?, hat, Option.map_some]

namespace Stems

variable {parent : Option Mode} {p : Prepared}

/-- What the plain form contains is what the mode contains, unless something is matched before it;
a made up mode contains the one that it holds. -/
theorem child (ht : t.Stems g) (hp : t.mode.prepare parent [] = .ok p)
    (hm : p.mode.contains[i]? = some (.inline m)) (hu : u ∈ (t.child i m).alternatives) :
    u.Stems g := by
  cases hmade : t.madeUp with
  | true =>
    obtain ⟨inner, hmode, hinner⟩ := ht.held hmade
    rw [(Mode.prepare_contents (congrArg Mode.beforeMatch hmode) hp).1, hmode] at hm
    rw [Template.child, if_pos hmade] at hu
    obtain rfl : m = inner := by
      cases i with
      | zero =>
        cases hm
        rfl
      | succ i => cases hm
    refine stems_alternatives rfl hinner (fun v hv r hr ↦ ?_) hu
    unfold alternatives at hv
    split at hv
    · cases List.mem_singleton.1 hv
      cases hr
    · obtain ⟨k, hk, rfl⟩ := List.mem_mapIdx.1 hv
      cases hr
  | false =>
    cases hbefore : t.mode.beforeMatch with
    | none =>
      rw [(Mode.prepare_contents hbefore hp).1] at hm
      rw [Template.child, if_neg (by simp [hmade])] at hu
      have hat := (ht.written hmade).contains i m hm
      refine stems_written hat ?_ hu
      simp only [Place.step] at hat ⊢
      simp only [Grammar.templateAt?, hat, Option.map_some]
    | some before =>
      obtain ⟨inner, hcontains, -⟩ := Mode.prepare_before hbefore hp
      rw [hcontains] at hm
      cases hm

theorem next (ht : t.Stems g) (hp : t.mode.prepare parent [] = .ok p)
    (hm : p.mode.starts = some m) : (t.next m).Stems g := by
  cases hbefore : t.mode.beforeMatch with
  | none =>
    rw [(Mode.prepare_contents hbefore hp).2] at hm
    cases hmade : t.madeUp with
    | true =>
      obtain ⟨inner, hmode, -⟩ := ht.held hmade
      rw [hmode] at hm
      cases hm
    | false =>
      rw [Template.next, if_neg (by simp [hbefore])]
      have hat := (ht.written hmade).starts m hm
      refine ⟨fun _ ↦ Mode.writtenIn_of_modeAt? hat, fun h ↦ Bool.noConfusion h, fun r hr ↦ ?_⟩
      cases hr
      simp only [Place.step] at hat ⊢
      simp only [Grammar.templateAt?, hat, Option.map_some]
  | some before =>
    obtain ⟨inner, -, hstarts, hsame⟩ := Mode.prepare_before hbefore hp
    cases hm.symm.trans hstarts
    rw [Template.next, if_pos (by simp [hbefore])]
    refine ⟨fun h ↦ Bool.noConfusion h, fun _ ↦ ⟨inner, rfl, ?_⟩, fun q hq ↦ ?_⟩
    · cases hmade : t.madeUp with
      | true =>
        obtain ⟨held, hmode, -⟩ := ht.held hmade
        rw [hmode] at hbefore
        cases hbefore
      | false => exact (ht.written hmade).congr hsame.1 hsame.2.1 hsame.2.2
    · cases hq

/-- The templates that an entry of the plain form stands for. -/
theorem templatesOf (ht : t.Stems g) (hp : t.mode.prepare parent [] = .ok p) {entry : Entry Mode}
    (hentry : p.mode.contains[i]? = some entry)
    (hu : u ∈ Placing.templatesOf g.modes t i entry) : u.Stems g := by
  cases entry with
  | self => cases hu
  | named name =>
    simp only [Placing.templatesOf] at hu
    split at hu
    · exact stems_named ‹_› hu
    · cases hu
  | inline m => exact ht.child hp hentry hu

/-- Two templates with one place are one template. -/
theorem eq (ht : t.Stems g) (hu : u.Stems g) (htq : t.place = some q) (huq : u.place = some q) :
    t = u :=
  Option.some.inj ((ht.place q htq).symm.trans (hu.place q huq))

end Stems

end Template

section Stemming

variable (hext : g.extensions = [])

include hext

theorem Leads.stems (h : Leads g scoring l c d) (hc : c.template.Stems g) : d.template.Stems g := by
  cases h with
  | content ho hasks =>
    have hp := (Call.opening_eq_ok ho).1
    rw [hext] at hp
    obtain ⟨i, entry, hentry, hu⟩ := hasks.mem
    rw [Nat.zero_add] at hu
    exact hc.templatesOf hp hentry hu
  | next ho _ hmode =>
    have hp := (Call.opening_eq_ok ho).1
    rw [hext] at hp
    exact hc.next hp hmode

theorem Within.stems (h : Within g scoring n g.firstCall l d) : d.template.Stems g := by
  induction h with
  | refl => exact Template.stems_root g
  | step _ hlead ih => exact hlead.stems hext ih

end Stemming

/-! Which call a number stands for. -/

/-- A number that has been taken by a call for the template, within other modes. -/
def Template.Takes (t : Template) (g : Grammar) (scoring : KeywordScoring) (n i : Nat) : Prop :=
  ∃ l c, Within g scoring n g.firstCall l c ∧ c.template = t ∧ c.number = i ∧ c.around ≠ []

theorem Within.takes (h : Within g scoring n g.firstCall l c) (hq : c.template.place = some q) :
    c.template.Takes g scoring n c.number := by
  obtain rfl | ⟨haround, -⟩ := h.first_or
  · cases hq
  · exact ⟨l, c, h, rfl, rfl, haround⟩

/-- Each mode of an arena has been compiled by a call with its number, and each number that is known
by a place has been taken for a template with that place. -/
structure Arena.Traced (g : Grammar) (scoring : KeywordScoring) (n : Nat) (a : Arena) : Prop where
  slots : ∀ (i : Nat) m, a.slots[i]? = some (some m) → ∃ l c b,
    ∃ k : Compilation g scoring l c.template c.around c.arena b,
      Within g scoring n g.firstCall (l + 1) c ∧ c.opening g scoring = .ok k.opening ∧
        c.number = i ∧ m = k.mode
  shared : ∀ q i, (q, i) ∈ a.shared → ∃ t : Template, t.place = some q ∧ t.Takes g scoring n i

namespace Arena.Traced

variable {a : Arena}

theorem overlooks : Placing.Overlooks (Arena.Traced g scoring n) := fun _ _ _ h ↦
  ⟨h.slots, h.shared⟩

theorem opened (h : c.arena.Traced g scoring n) (hc : Within g scoring n g.firstCall l c)
    (o : Opening) : (c.opened o).Traced g scoring n where
  slots i m hm := by
    simp only [Call.opened, Arena.reserve, Array.getElem?_push] at hm
    split at hm
    · cases hm
    · exact h.slots i m hm
  shared q i hi := by
    rcases List.mem_append.1 hi with hi | hi
    · obtain ⟨r, hr, heq⟩ := Option.map_eq_some_iff.1 (Option.mem_toList.1 hi)
      cases heq
      split at hr
      · cases hr
      · exact ⟨c.template, hr, hc.takes hr⟩
    · exact h.shared q i hi

theorem finish (h : a.Traced g scoring n) {b : Arena}
    (k : Compilation g scoring l c.template c.around c.arena b)
    (hc : Within g scoring n g.firstCall (l + 1) c)
    (ho : c.opening g scoring = .ok k.opening) :
    (a.finish c.number k.mode).Traced g scoring n where
  slots i m hm := by
    simp only [Arena.finish, Array.getElem?_setIfInBounds] at hm
    split at hm
    · rename_i hi
      split at hm
      · cases hm
        exact ⟨l, c, b, k, hc, ho, hi, rfl⟩
      · cases hm
    · exact h.slots i m hm
  shared := h.shared

end Arena.Traced

theorem Call.answer_traced (hc : Within g scoring n g.firstCall l c)
    (h : c.arena.Traced g scoring n) {id : Nat} {a : Arena}
    (ha : c.answer g scoring l = .ok (id, a)) : a.Traced g scoring n := by
  induction l generalizing c id a with
  | zero => cases ha
  | succ l ih =>
    obtain ⟨k, ho⟩ := exists_compilation ha
    have hstep : ∀ ⦃d id b⦄, Leads g scoring l c d → d.arena.Traced g scoring n →
        d.answer g scoring l = .ok (id, b) → b.Traced g scoring n := by
      intro d id b hd htraced hanswer
      exact ih (hc.step hd) htraced hanswer
    have houter := ((c.along .overlooks (fun o _ ↦ h.opened hc o) hstep).2 ho k.contains_eq
      k.starts_eq).2
    rw [k.result]
    exact houter.finish k hc ho

theorem Within.traced (h : Within g scoring n g.firstCall l c) : c.arena.Traced g scoring n := by
  induction h with
  | refl =>
    refine ⟨fun i m hm ↦ ?_, fun q i hi ↦ ?_⟩
    · simp [Grammar.firstCall] at hm
    · cases hi
  | @step fuel d e hd hlead ih =>
    refine (d.along .overlooks (fun o _ ↦ ih.opened hd o) ?_).1 hlead
    intro e id b he htraced hanswer
    exact Call.answer_traced (hd.step he) htraced hanswer

/-- The modes around a call have numbers that were taken for templates with their places. -/
def Remembers (g : Grammar) (scoring : KeywordScoring) (n : Nat) (around : List Enclosing) : Prop :=
  ∀ e ∈ around, ∀ q, e.place = some q →
    ∃ t : Template, t.place = some q ∧ t.Takes g scoring n e.id

theorem Remembers.within (h : Remembers g scoring n c.around)
    (hc : Within g scoring n g.firstCall l c) (o : Opening) :
    Remembers g scoring n (c.within o) := by
  intro e he q hq
  rcases List.mem_cons.1 he with rfl | he
  · exact ⟨c.template, hq, hc.takes hq⟩
  · exact h e he q hq

theorem Within.remembers (h : Within g scoring n g.firstCall l c) :
    Remembers g scoring n c.around := by
  induction h with
  | refl =>
    intro e he
    cases he
  | @step fuel d e hd hlead ih =>
    obtain ⟨o, -, haround⟩ | ⟨haround, -⟩ := hlead.around
    · rw [haround]
      exact ih.within hd o
    · rw [haround]
      exact ih

/-- A mode that serves for a template has been compiled for a template with the same place. -/
theorem Arena.Traced.served {a : Arena} (ha : a.Traced g scoring n) {around : List Enclosing}
    (haround : Remembers g scoring n around)
    (h : a.fitting? u around = some i ∨ u.makeshift? around = some i) :
    ∃ (q : Place) (t : Template), u.place = some q ∧ t.place = some q ∧
      t.Takes g scoring n i := by
  have hcopy {q : Place} {copy : Nat × String} (hcopy : copy ∈ copiesAround q around) :
      ∃ t : Template, t.place = some q ∧ t.Takes g scoring n copy.1 := by
    obtain ⟨e, he, hplace, hid⟩ := mem_copiesAround hcopy
    exact hid ▸ haround e he q hplace
  rcases h with h | h
  · obtain ⟨q, hq, h⟩ := Option.bind_eq_some_iff.1 h
    split at h
    · obtain ⟨copy, hfind, rfl⟩ := Option.map_eq_some_iff.1 h
      obtain ⟨t, ht⟩ := hcopy (List.mem_of_find?_eq_some hfind)
      exact ⟨q, t, hq, ht⟩
    · obtain ⟨before, after, hshared, -⟩ := List.lookup_eq_some_iff.1 h
      obtain ⟨t, ht⟩ := ha.shared q i (by simp [hshared])
      exact ⟨q, t, hq, ht⟩
  · obtain ⟨q, hq, h⟩ := Option.bind_eq_some_iff.1 h
    split at h
    · rw [nearestCopy?] at h
      split at h
      · obtain ⟨copy, hhead, rfl⟩ := Option.map_eq_some_iff.1 h
        obtain ⟨t, ht⟩ := hcopy (List.mem_of_head? hhead)
        exact ⟨q, t, hq, ht⟩
      · cases h
    · cases h

theorem Arena.Traced.takes {a : Arena} (hext : g.extensions = []) (ha : a.Traced g scoring n)
    {around : List Enclosing} (haround : Remembers g scoring n around) (hu : u.Stems g)
    (h : a.fitting? u around = some i ∨ u.makeshift? around = some i) :
    u.Takes g scoring n i := by
  obtain ⟨q, t, huq, htq, l, c, hc, rfl, htaken⟩ := ha.served haround h
  obtain rfl := hu.eq (hc.stems hext) huq htq
  exact ⟨l, c, hc, rfl, htaken⟩

namespace Grammar

variable {cg : CompiledGrammar}

/-- Every mode of a compiled grammar has been compiled by a call with its number. -/
theorem compile_compilation (h : g.compile scoring = .ok cg) (hi : i < cg.modes.size) :
    ∃ l c b, ∃ k : Compilation g scoring l c.template c.around c.arena b,
      Within g scoring g.levels g.firstCall (l + 1) c ∧ c.opening g scoring = .ok k.opening ∧
        c.number = i ∧ cg.mode i = k.mode := by
  obtain ⟨a, ha, rfl⟩ := compile_eq_ok h
  have hi : i < a.modes.size := hi
  have hslot : a.slots[i]? = some (some a.modes[i]) := by
    rw [arena_slots ha, Array.getElem?_map, Array.getElem?_eq_getElem hi]
    rfl
  have htraced : a.Traced g scoring g.levels := by
    unfold arena at ha
    split at ha
    · cases ha
    · obtain ⟨⟨id, b⟩, hb, ha⟩ := bind_eq_ok.1 ha
      cases ha
      exact Call.answer_traced .refl Within.refl.traced hb
  obtain ⟨l, c, b, k, hc, ho, hnumber, hmode⟩ := htraced.slots i _ hslot
  refine ⟨l, c, b, k, hc, ho, hnumber, ?_⟩
  simp [CompiledGrammar.mode, Array.getElem?_eq_getElem hi, hmode]

end Grammar

end SyntaxHighlight
