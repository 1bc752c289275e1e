import SyntaxHighlight.Grammar.Compile
import SyntaxHighlight.Proofs.Outcome

/-! How the arena grows while a grammar is compiled: numbers are given out in order, and a mode that
is finished stays as it is. -/
namespace SyntaxHighlight

namespace Arena

variable {a a' a'' : Arena}

/-- `a'` comes from `a` by compiling some more modes to their end. -/
structure Extends (a a' : Arena) : Prop where
  size_le : a.slots.size ≤ a'.slots.size
  kept : ∀ i < a.slots.size, a'.slots[i]? = a.slots[i]?
  finished : ∀ i, a.slots.size ≤ i → i < a'.slots.size → ∃ m, a'.slots[i]? = some (some m)

namespace Extends

theorem refl (a : Arena) : Extends a a :=
  ⟨Nat.le_refl _, fun _ _ ↦ rfl, fun _ _ _ ↦ by omega⟩

theorem trans (h : Extends a a') (h' : Extends a' a'') : Extends a a'' where
  size_le := Nat.le_trans h.size_le h'.size_le
  kept i hi := (h'.kept i (Nat.lt_of_lt_of_le hi h.size_le)).trans (h.kept i hi)
  finished i hi hi' := by
    by_cases hlt : i < a'.slots.size
    · rw [h'.kept i hlt]
      exact h.finished i hi hlt
    · exact h'.finished i (by omega) hi'

end Extends

/-- What is noted of the modes beside their slots does not count. -/
theorem extends_note (a : Arena) (crowded : List (Nat × Nat)) (selves : List Nat) :
    Extends a { a with crowded, selves } :=
  ⟨Nat.le_refl _, fun _ _ ↦ rfl, fun _ _ _ ↦ by simp only at *; omega⟩

/-- A number that has been taken is filled after all that has been compiled in between. -/
theorem extends_finish {begin : String} {place : Option Place} (mode : CompiledMode)
    (h : Extends (a.reserve begin place).2 a') :
    Extends a (a'.finish a.slots.size mode) ∧
      (a'.finish a.slots.size mode).slots[a.slots.size]? = some (some mode) := by
  have hsize : (a.reserve begin place).2.slots.size = a.slots.size + 1 := by simp [reserve]
  have hlt : a.slots.size < a'.slots.size := by
    have := h.size_le
    omega
  refine ⟨⟨?_, fun i hi ↦ ?_, fun i hi hi' ↦ ?_⟩, ?_⟩
  · simp only [finish, Array.size_setIfInBounds]
    omega
  · simp only [finish]
    rw [Array.getElem?_setIfInBounds_ne (by omega), h.kept i (by omega)]
    simp [reserve, Array.getElem?_push, hi, Nat.ne_of_lt hi]
  · simp only [finish, Array.size_setIfInBounds] at hi' ⊢
    by_cases he : a.slots.size = i
    · subst he
      exact ⟨mode, Array.getElem?_setIfInBounds_self_of_lt hlt⟩
    · rw [Array.getElem?_setIfInBounds_ne he]
      exact h.finished i (by omega) hi'
  · exact Array.getElem?_setIfInBounds_self_of_lt hlt

end Arena

variable {g : Grammar} {scoring : KeywordScoring}

/-- What compiling a template goes through. -/
structure Compilation (g : Grammar) (scoring : KeywordScoring) (fuel : Nat) (t : Template)
    (around : List Enclosing) (a a' : Arena) where
  p : Prepared
  begin : String
  ending : Option Regex.Expr
  keywords : Option KeywordTable × Option Regex.Expr
  contains : List Nat
  starts : Option Nat
  matcher : Rule.Resumable
  inner : Arena
  outer : Arena
  begin_eq : beginOf g p around = .ok begin
  prepare_eq : t.mode.prepare (around.head?.map Enclosing.mode) g.extensions = .ok p
  ending_eq : (terminatorsOf p around).1.mapM (fun source ↦ Pattern.compile source g.flags) =
    .ok ending
  keywords_eq : keywordsOf g scoring p.mode = .ok keywords
  contains_eq :
    Placing.placeEntries (compileMode g scoring fuel) g.modes t a.slots.size
      (⟨t.place, a.slots.size, (terminatorsOf p around).2, p.mode⟩ :: around) 0 p.mode.contains
      (a.reserve begin (if t.mode.dependsOnParent then none else t.place)).2 = .ok (contains, inner)
  starts_eq :
    Placing.placeNext (compileMode g scoring fuel) t a.slots.size around p.mode.starts inner =
      .ok (starts, outer)
  matcher_eq :
    Rule.Resumable.ofRules
      (rulesOf outer.begins contains (terminatorsOf p around).2 p.illegalSource?) g.flags =
      .ok matcher
  result : a' = outer.finish a.slots.size
    (p.compiled begin (terminatorsOf p around).2 ending keywords contains starts matcher)

theorem compileMode_eq_ok {fuel : Nat} {t : Template} {around : List Enclosing} {a a' : Arena}
    {id : Nat} (h : compileMode g scoring (fuel + 1) t around a = .ok (id, a')) :
    id = a.slots.size ∧ Nonempty (Compilation g scoring fuel t around a a') := by
  simp only [compileMode] at h
  obtain ⟨p, hp, h⟩ := bind_eq_ok.1 h
  obtain ⟨begin, hbegin, h⟩ := bind_eq_ok.1 h
  obtain ⟨ending, hending, h⟩ := bind_eq_ok.1 h
  obtain ⟨_, _, h⟩ := bind_eq_ok.1 h
  obtain ⟨keywords, hkeywords, h⟩ := bind_eq_ok.1 h
  obtain ⟨⟨contains, inner⟩, hcontains, h⟩ := bind_eq_ok.1 h
  obtain ⟨⟨starts, outer⟩, hstarts, h⟩ := bind_eq_ok.1 h
  obtain ⟨matcher, hmatcher, h⟩ := bind_eq_ok.1 h
  cases h
  exact ⟨rfl, ⟨⟨p, begin, ending, keywords, contains, starts, matcher, inner, outer, hbegin, hp,
    hending, hkeywords, hcontains, hstarts, hmatcher, rfl⟩⟩⟩

/-- What is tracked beside the arena while modes are placed: a state, how it may move on, and what
it tells of a number. -/
structure Tracking (σ : Type) where
  tracks : σ → Arena → Prop
  le : σ → σ → Prop
  tells : σ → Nat → Prop
  refl (x : σ) : le x x
  trans {x y z : σ} : le x y → le y z → le x z
  mono {x y : σ} {id : Nat} : le x y → tells x id → tells y id

namespace Tracking

variable {σ : Type} (T : Tracking σ)

/-- Placing one of certain templates goes along with a move of the state. -/
def Keeps (K : Template → Prop) (place : Template → Arena → Except GrammarError (Nat × Arena)) :
    Prop :=
  ∀ ⦃t x a id a'⦄, K t → T.tracks x a → place t a = .ok (id, a') →
    ∃ y, T.le x y ∧ T.tracks y a' ∧ T.tells y id

variable {T} {K : Template → Prop} {compile : Placing} {own : Nat} {around : List Enclosing}

theorem Keeps.placeAll (h : T.Keeps K (Placing.place compile own · around)) {ts : List Template}
    (hts : ∀ t ∈ ts, K t) {x : σ} {a a' : Arena} {ids : List Nat} (hx : T.tracks x a)
    (ha : Placing.placeAll compile own around ts a = .ok (ids, a')) :
    ∃ y, T.le x y ∧ T.tracks y a' ∧ ∀ id ∈ ids, T.tells y id := by
  induction ts generalizing x a ids with
  | nil =>
    cases ha
    exact ⟨x, T.refl x, hx, by simp⟩
  | cons t ts ih =>
    obtain ⟨⟨id, b⟩, hid, ha⟩ := bind_eq_ok.1 ha
    obtain ⟨⟨others, c⟩, hothers, ha⟩ := bind_eq_ok.1 ha
    cases ha
    obtain ⟨y, hxy, hy, htells⟩ := h (hts t List.mem_cons_self) hx hid
    obtain ⟨z, hyz, hz, hall⟩ := ih (fun u hu ↦ hts u (List.mem_cons_of_mem _ hu)) hy hothers
    refine ⟨z, T.trans hxy hyz, hz, fun k hk ↦ ?_⟩
    obtain rfl | hk := List.mem_cons.1 hk
    · exact T.mono hyz htells
    · exact hall k hk

/-- Entries are placed one after another. An entry for the mode itself is only noted. -/
theorem Keeps.placeEntries (h : T.Keeps K (Placing.place compile own · around))
    {named : Dictionary Mode} {t : Template} {entries : List (Entry Mode)} {i : Nat}
    (hself : .self ∈ entries → ∀ ⦃x a⦄, T.tracks x a → ∃ y, T.le x y ∧
      T.tracks y { a with selves := own :: a.selves } ∧ T.tells y own)
    (hnamed : ∀ name mode, named.get? name = some mode →
      ∀ u ∈ (Template.written mode ⟨some name, []⟩).alternatives, K u)
    (hchild : ∀ i mode, .inline mode ∈ entries → ∀ u ∈ (t.child i mode).alternatives, K u)
    {x : σ} {a a' : Arena} {ids : List Nat} (hx : T.tracks x a)
    (ha : Placing.placeEntries compile named t own around i entries a = .ok (ids, a')) :
    ∃ y, T.le x y ∧ T.tracks y a' ∧ ∀ id ∈ ids, T.tells y id := by
  induction entries generalizing x a ids i with
  | nil =>
    cases ha
    exact ⟨x, T.refl x, hx, by simp⟩
  | cons entry entries ih =>
    obtain ⟨⟨first, b⟩, hfirst, ha⟩ := bind_eq_ok.1 ha
    obtain ⟨⟨others, c⟩, hothers, ha⟩ := bind_eq_ok.1 ha
    cases ha
    have hentry : ∃ y, T.le x y ∧ T.tracks y b ∧ ∀ id ∈ first, T.tells y id := by
      cases entry with
      | self =>
        cases hfirst
        obtain ⟨y, hxy, hy, htells⟩ := hself List.mem_cons_self hx
        exact ⟨y, hxy, hy, by simpa using htells⟩
      | named name =>
        simp only [Placing.placeEntry] at hfirst
        split at hfirst
        · rename_i mode hmode
          exact h.placeAll (hnamed name mode hmode) hx hfirst
        · cases hfirst
      | inline mode => exact h.placeAll (hchild i mode List.mem_cons_self) hx hfirst
    obtain ⟨y, hxy, hy, htells⟩ := hentry
    obtain ⟨z, hyz, hz, hall⟩ :=
      ih (fun hm ↦ hself (List.mem_cons_of_mem _ hm))
        (fun i mode hm ↦ hchild i mode (List.mem_cons_of_mem _ hm)) hy hothers
    refine ⟨z, T.trans hxy hyz, hz, fun id hid ↦ ?_⟩
    obtain hid | hid := List.mem_append.1 hid
    · exact T.mono hyz (htells id hid)
    · exact hall id hid

theorem Keeps.placeNext (h : T.Keeps K (Placing.place compile own · around)) {t : Template}
    {starts : Option Mode} (hnext : ∀ next, starts = some next → K (t.next next))
    {x : σ} {a a' : Arena} {id : Option Nat} (hx : T.tracks x a)
    (ha : Placing.placeNext compile t own around starts a = .ok (id, a')) :
    ∃ y, T.le x y ∧ T.tracks y a' ∧ ∀ k, id = some k → T.tells y k := by
  unfold Placing.placeNext at ha
  split at ha
  · rename_i next
    split at ha
    · cases ha
      exact ⟨x, T.refl x, hx, by simp⟩
    · obtain ⟨⟨k, b⟩, hk, ha⟩ := bind_eq_ok.1 ha
      cases ha
      obtain ⟨y, hxy, hy, htells⟩ := h (hnext next rfl) hx hk
      exact ⟨y, hxy, hy, by simpa using htells⟩
  · cases ha
    exact ⟨x, T.refl x, hx, by simp⟩

end Tracking

/-- Placing a template takes a mode that serves, or compiles it. -/
theorem place_eq_ok {compile : Placing} {holder id : Nat} {t : Template} {around : List Enclosing}
    {a a' : Arena} (h : Placing.place compile holder t around a = .ok (id, a')) :
    a.fitting? t around = some id ∧ a' = a ∨
      t.makeshift? around = some id ∧ a' = { a with crowded := (holder, id) :: a.crowded } ∨
      compile t around a = .ok (id, a') := by
  unfold Placing.place at h
  split at h
  · rename_i hid
    cases h
    exact .inl ⟨hid, rfl⟩
  · split at h
    · rename_i hid
      cases h
      exact .inr (.inl ⟨hid, rfl⟩)
    · exact .inr (.inr h)

/-- The growth of the arena. -/
def growth : Tracking Arena where
  tracks x a := x = a
  le := Arena.Extends
  tells _ _ := True
  refl := .refl
  trans := .trans
  mono _ _ := trivial

theorem growth_self {own : Nat} ⦃x a : Arena⦄ (h : growth.tracks x a) :
    ∃ y, growth.le x y ∧ growth.tracks y { a with selves := own :: a.selves } ∧
      growth.tells y own := by
  cases h
  exact ⟨_, Arena.extends_note _ _ _, rfl, trivial⟩

theorem growth_place {compile : Placing}
    (h : ∀ {t around a id a'}, compile t around a = .ok (id, a') → Arena.Extends a a') (own : Nat)
    (around : List Enclosing) :
    growth.Keeps (fun _ ↦ True) (Placing.place compile own · around) := by
  rintro t x a id a' - rfl hid
  obtain ⟨-, rfl⟩ | ⟨-, rfl⟩ | hid := place_eq_ok hid
  · exact ⟨_, .refl _, rfl, trivial⟩
  · exact ⟨_, Arena.extends_note _ _ _, rfl, trivial⟩
  · exact ⟨a', h hid, rfl, trivial⟩

namespace Compilation

variable {fuel : Nat} {t : Template} {around : List Enclosing} {a a' : Arena}
  (c : Compilation g scoring fuel t around a a')

/-- The mode that a template has become. -/
def mode : CompiledMode :=
  c.p.compiled c.begin (terminatorsOf c.p around).2 c.ending c.keywords c.contains c.starts
    c.matcher

theorem outer_extends_of
    (h : ∀ {t around a id a'}, compileMode g scoring fuel t around a = .ok (id, a') →
      Arena.Extends a a') :
    Arena.Extends (a.reserve c.begin (if t.mode.dependsOnParent then none else t.place)).2
      c.outer := by
  obtain ⟨_, hinner, rfl, -⟩ :=
    (growth_place h _ _).placeEntries (fun _ ↦ growth_self) (by simp) (by simp) rfl c.contains_eq
  obtain ⟨_, houter, rfl, -⟩ := (growth_place h _ _).placeNext (by simp) rfl c.starts_eq
  exact hinner.trans houter

end Compilation

theorem compileMode_extends {fuel : Nat} {t : Template} {around : List Enclosing} {a a' : Arena}
    {id : Nat} (h : compileMode g scoring fuel t around a = .ok (id, a')) : a.Extends a' := by
  induction fuel generalizing t around a a' id with
  | zero => cases h
  | succ fuel ih =>
    obtain ⟨-, ⟨c⟩⟩ := compileMode_eq_ok h
    rw [c.result]
    exact (Arena.extends_finish _ (c.outer_extends_of ih)).1

namespace Compilation

variable {fuel : Nat} {t : Template} {around : List Enclosing} {a a' : Arena}
  (c : Compilation g scoring fuel t around a a')

theorem outer_extends :
    Arena.Extends (a.reserve c.begin (if t.mode.dependsOnParent then none else t.place)).2
      c.outer :=
  c.outer_extends_of compileMode_extends

theorem slot : a'.slots[a.slots.size]? = some (some c.mode) := by
  have h := (Arena.extends_finish c.mode c.outer_extends).2
  rwa [mode, ← c.result] at h

end Compilation

namespace Arena

/-- Every finished mode has a property. -/
def All (Q : CompiledMode → Prop) (a : Arena) : Prop :=
  ∀ (i : Nat) m, a.slots[i]? = some (some m) → Q m

variable {Q : CompiledMode → Prop} {a : Arena}

theorem All.reserve (h : a.All Q) (begin : String) (place : Option Place) :
    (a.reserve begin place).2.All Q := by
  intro i m hm
  simp only [Arena.reserve, Array.getElem?_push] at hm
  split at hm
  · cases hm
  · exact h i m hm

theorem All.finish (h : a.All Q) {id : Nat} {mode : CompiledMode} (hmode : Q mode) :
    (a.finish id mode).All Q := by
  intro i m hm
  simp only [Arena.finish, Array.getElem?_setIfInBounds] at hm
  split at hm
  · split at hm
    · cases hm
      exact hmode
    · cases hm
  · exact h i m hm

/-- A property that all finished modes keep having. -/
def every (Q : CompiledMode → Prop) : Tracking Unit where
  tracks _ a := a.All Q
  le _ _ := True
  tells _ _ := True
  refl _ := trivial
  trans _ _ := trivial
  mono _ _ := trivial

end Arena

theorem compileMode_all {Q : CompiledMode → Prop}
    (hQ : ∀ {fuel t around a a'} (c : Compilation g scoring fuel t around a a'), Q c.mode)
    {fuel : Nat} {t : Template} {around : List Enclosing} {a a' : Arena} {id : Nat}
    (h : compileMode g scoring fuel t around a = .ok (id, a')) (ha : a.All Q) : a'.All Q := by
  induction fuel generalizing t around a a' id with
  | zero => cases h
  | succ fuel ih =>
    obtain ⟨-, ⟨c⟩⟩ := compileMode_eq_ok h
    have hplace (own : Nat) (around : List Enclosing) : (Arena.every Q).Keeps (fun _ ↦ True)
        (Placing.place (compileMode g scoring fuel) own · around) := by
      rintro t x a id a' - ha hid
      obtain ⟨-, rfl⟩ | ⟨-, rfl⟩ | hid := place_eq_ok hid
      · exact ⟨(), trivial, ha, trivial⟩
      · exact ⟨(), trivial, ha, trivial⟩
      · exact ⟨(), trivial, ih hid ha, trivial⟩
    obtain ⟨_, -, hinner, -⟩ := (hplace _ _).placeEntries (x := ())
      (fun _ _ _ ha ↦ ⟨(), trivial, ha, trivial⟩) (by simp) (by simp) (ha.reserve _ _) c.contains_eq
    obtain ⟨_, -, houter, -⟩ := (hplace _ _).placeNext (by simp) hinner c.starts_eq
    rw [c.result]
    exact houter.finish (hQ c)

theorem filterMap_id_getElem? {α : Type} (slots : List (Option α))
    (h : ∀ i < slots.length, ∃ x, slots[i]? = some (some x)) (i : Nat) :
    (slots.filterMap id)[i]? = slots[i]?.join := by
  induction slots generalizing i with
  | nil => rfl
  | cons slot slots ih =>
    obtain ⟨x, hx⟩ := h 0 (by simp)
    cases hx
    cases i with
    | zero => rfl
    | succ i => exact ih (fun i hi ↦ h (i + 1) (by simpa using hi)) i

namespace Grammar

variable {a : Arena}

theorem arena_eq_ok (h : g.arena scoring = .ok a) :
    ∃ fuel, Nonempty (Compilation g scoring fuel (.root g.rootMode) [] {} a) := by
  unfold arena at h
  split at h
  · cases h
  · obtain ⟨⟨id, b⟩, hb, h⟩ := bind_eq_ok.1 h
    cases h
    obtain ⟨n, hn⟩ : ∃ n, g.levels = n + 1 :=
      Nat.exists_eq_succ_of_ne_zero (Nat.ne_of_gt (Nat.mul_pos (by omega) (by omega)))
    rw [hn] at hb
    exact ⟨n, (compileMode_eq_ok hb).2⟩

theorem arena_extends (h : g.arena scoring = .ok a) : Arena.Extends {} a := by
  unfold arena at h
  split at h
  · cases h
  · obtain ⟨⟨id, b⟩, hb, h⟩ := bind_eq_ok.1 h
    cases h
    exact compileMode_extends hb

theorem arena_finished (h : g.arena scoring = .ok a) {i : Nat} (hi : i < a.slots.size) :
    ∃ m, a.slots[i]? = some (some m) :=
  (arena_extends h).finished i (by simp) hi

theorem arena_modes (h : g.arena scoring = .ok a) (i : Nat) : a.modes[i]? = a.slots[i]?.join := by
  have hf := filterMap_id_getElem? a.slots.toList
    (fun i hi ↦ by simpa using arena_finished h (by simpa using hi)) i
  rw [Arena.modes, ← Array.getElem?_toList, Array.toList_filterMap, hf, Array.getElem?_toList]

theorem compile_eq_ok {c : CompiledGrammar} (h : g.compile scoring = .ok c) :
    ∃ a, g.arena scoring = .ok a ∧
      c = ⟨g.name, g.caseInsensitive, g.classNameAliases, g.emitTokens, a.modes⟩ := by
  obtain ⟨a, ha, h⟩ := bind_eq_ok.1 h
  cases h
  exact ⟨a, ha, rfl⟩

/-- What holds of each mode that is compiled holds of every mode of the compiled grammar. -/
theorem compile_all {c : CompiledGrammar} {Q : CompiledMode → Prop}
    (h : g.compile scoring = .ok c) (hdefault : Q default)
    (hQ : ∀ {fuel t around a a'} (c : Compilation g scoring fuel t around a a'), Q c.mode)
    (i : Nat) : Q (c.mode i) := by
  obtain ⟨a, ha, rfl⟩ := compile_eq_ok h
  have hall : a.All Q := by
    unfold arena at ha
    split at ha
    · cases ha
    · obtain ⟨⟨id, b⟩, hb, ha⟩ := bind_eq_ok.1 ha
      cases ha
      exact compileMode_all hQ hb (by simp [Arena.All])
  rw [CompiledGrammar.mode, arena_modes ha]
  cases hm : a.slots[i]?.join with
  | none => exact hdefault
  | some m => exact hall i m (Option.join_eq_some_iff.1 hm)

theorem compile_root {c : CompiledGrammar} (h : g.compile scoring = .ok c) :
    ∃ fuel a, ∃ k : Compilation g scoring fuel (.root g.rootMode) [] {} a, c.root = k.mode := by
  obtain ⟨a, ha, rfl⟩ := compile_eq_ok h
  obtain ⟨fuel, ⟨k⟩⟩ := arena_eq_ok ha
  refine ⟨fuel, a, k, ?_⟩
  have hslot := k.slot
  simp only [CompiledGrammar.root, CompiledGrammar.mode, arena_modes ha]
  rw [show CompiledGrammar.rootId = ({} : Arena).slots.size from rfl, hslot]
  rfl

end Grammar

end SyntaxHighlight
