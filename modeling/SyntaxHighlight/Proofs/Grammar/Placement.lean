import Mathlib
import SyntaxHighlight.Proofs.Grammar.Arena
import SyntaxHighlight.Proofs.Grammar.Places
import SyntaxHighlight.Proofs.Mode.Prepared

/-! Where modes that end with their parent are placed. Each of them ends with what ends the mode in
which it is placed, whichever way it came there. -/
namespace SyntaxHighlight

namespace Mode

variable {m m' : Mode} {parent : Option Mode} {p : Prepared}

theorem dependsOnParent_eq (m : Mode) :
    m.dependsOnParent = (m.endsWithParent || m.starts.any dependsOnParent) := by
  rw [dependsOnParent.eq_def]
  cases m
  dsimp only
  split <;> rfl

theorem dependsOnParent_congr (hends : m'.endsWithParent = m.endsWithParent)
    (hstarts : m'.starts = m.starts) : m'.dependsOnParent = m.dependsOnParent := by
  rw [dependsOnParent_eq, dependsOnParent_eq, hends, hstarts]

/-- The mode that is made up before another one has nothing to do with its parent. -/
theorem wrapBeforeMatch_dependsOnParent (h : m.wrapBeforeMatch = .ok m')
    (hm' : m'.dependsOnParent = true) : m.dependsOnParent = true := by
  unfold wrapBeforeMatch at h
  split at h
  · cases h
    exact hm'
  · split at h
    · cases h
    · cases h
      simp [dependsOnParent_eq] at hm'

/-- The plain form of a mode depends on the parent only if the mode does, or is changed to. -/
theorem prepare_dependsOnParent {extensions : List Extension}
    (hleaves : ∀ e ∈ extensions, e.Leaves endsWithParent)
    (h : m.prepare parent extensions = .ok p) (hp : p.mode.dependsOnParent = true) :
    m.dependsOnParent = true := by
  obtain ⟨named, wrapped, changed, begin, ending, hnamed, hwrapped, hchanged, hmode, -, -⟩ :=
    prepare_eq_ok h
  have hspelled := changed.alike_spelledOut parent.isSome
  have hends : p.mode.endsWithParent = changed.endsWithParent := by
    rw [hmode, ← hspelled.endsWithParent]
  have hstarts : p.mode.starts = changed.starts := by
    rw [hmode, ← hspelled.starts]
  rw [dependsOnParent_congr (hends.trans (extended_eq hleaves hchanged))
    (hstarts.trans (extended_starts hchanged))] at hp
  have halike := (alike_nameScope m).trans (alike_takeMatching hnamed)
  rw [← dependsOnParent_congr halike.endsWithParent halike.starts]
  exact wrapBeforeMatch_dependsOnParent hwrapped hp

end Mode

/-- What ends with a text, unless that is empty. -/
def EndsWith (terminator text : String) : Prop :=
  text ≠ "" → ∃ own, terminator = own ++ text

/-- What ends a mode with an end of its own, if it has one, that also ends with what is around it,
if something ends that. -/
def endedBy (own : Option String) (outer : String) : String :=
  if outer.isEmpty then own.getD ""
  else match own with
    | some own => Pattern.concat [own, "|", outer]
    | none => outer

theorem endsWith_endedBy (own : Option String) (outer : String) :
    EndsWith (endedBy own outer) outer := by
  intro hne
  unfold endedBy
  rw [if_neg (by simpa using hne)]
  split
  · rename_i own
    exact ⟨own ++ "|", by simp [Pattern.concat, String.join, String.append_assoc]⟩
  · exact ⟨"", by simp⟩

/-- A mode without an end of its own ends just where its parent does. -/
theorem terminatorsOf_endless {p : Prepared} {around : List Enclosing}
    (h : (terminatorsOf p around).1 = none) :
    (terminatorsOf p around).2 = "" ∨
      p.mode.endsWithParent = true ∧ (terminatorsOf p around).2 = terminatorOf around := by
  have hsecond : (terminatorsOf p around).2 =
      if p.mode.endsWithParent = true then terminatorOf around else "" := by
    simp only [terminatorsOf] at h ⊢
    rw [h]
    split <;> simp_all
  rw [hsecond]
  split
  · exact .inr ⟨‹_›, rfl⟩
  · exact .inl rfl

theorem Pattern.source_of_compile {source : String} {flags : Regex.Flags} {e : Regex.Expr}
    (h : Pattern.compile source flags = .ok e) : e.source = source := by
  unfold Pattern.compile at h
  split at h
  · rename_i hcompile
    cases h
    obtain ⟨_, -, hcompile⟩ := bind_eq_ok.1 hcompile
    obtain ⟨_, -, hcompile⟩ := bind_eq_ok.1 hcompile
    cases hcompile
    rfl
  · cases h

namespace Compilation

variable {g : Grammar} {scoring : KeywordScoring} {fuel : Nat} {t : Template}
  {around : List Enclosing} {a a' : Arena} (c : Compilation g scoring fuel t around a a')

theorem ending_source : c.ending.map Regex.Expr.source = (terminatorsOf c.p around).1 := by
  have hending := c.ending_eq
  generalize (terminatorsOf c.p around).1 = own, c.ending = ending at hending
  cases own with
  | none =>
    cases hending
    rfl
  | some own =>
    obtain ⟨e, he, rfl⟩ := map_eq_ok.1 hending
    exact congrArg some (Pattern.source_of_compile he)

theorem terminator_eq : c.mode.terminator = endedBy (c.mode.ending.map Regex.Expr.source)
    (if c.mode.endsWithParent then terminatorOf around else "") := by
  have hown : c.mode.ending.map Regex.Expr.source = (terminatorsOf c.p around).1 := c.ending_source
  rw [hown]
  rfl

end Compilation

/-- The arena, and for each mode that has to do with its parent what ends the mode in which it was
placed. -/
structure Ledger where
  arena : Arena
  under : Nat → Option String

namespace Ledger

variable {x y z : Ledger} {own id : Nat} {around : List Enclosing}

structure Le (x y : Ledger) : Prop where
  size_le : x.arena.slots.size ≤ y.arena.slots.size
  crowded : ∀ c ∈ x.arena.crowded, c ∈ y.arena.crowded
  selves : ∀ i ∈ x.arena.selves, i ∈ y.arena.selves
  under : ∀ i < x.arena.slots.size, y.under i = x.under i

theorem Le.refl (x : Ledger) : Le x x :=
  ⟨Nat.le_refl _, fun _ h ↦ h, fun _ h ↦ h, fun _ _ ↦ rfl⟩

theorem Le.trans (h : Le x y) (h' : Le y z) : Le x z where
  size_le := Nat.le_trans h.size_le h'.size_le
  crowded c hc := h'.crowded c (h.crowded c hc)
  selves i hi := h'.selves i (h.selves i hi)
  under i hi := (h'.under i (Nat.lt_of_lt_of_le hi h.size_le)).trans (h.under i hi)

/-- A mode was placed where something ends, if its own end has to do with that. -/
def Under (x : Ledger) (terminator : Option String) (id : Nat) : Prop :=
  id < x.arena.slots.size ∧ (x.under id = none ∨ x.under id = terminator)

def Placed (x : Ledger) (own : Nat) (terminator : Option String) (id : Nat) : Prop :=
  (own, id) ∈ x.arena.crowded ∨ x.Under terminator id

variable {terminator : Option String}

theorem Under.mono (h : x.Under terminator id) (hxy : Le x y) : y.Under terminator id :=
  ⟨Nat.lt_of_lt_of_le h.1 hxy.size_le, by rw [hxy.under id h.1]; exact h.2⟩

theorem Under.of_none (h : x.Under none id) : x.Under terminator id :=
  ⟨h.1, .inl (or_self_iff.1 h.2)⟩

theorem Placed.mono (h : x.Placed own terminator id) (hxy : Le x y) :
    y.Placed own terminator id :=
  h.imp (hxy.crowded _) (·.mono hxy)

theorem Placed.of_none (h : x.Placed own none id) : x.Placed own terminator id :=
  h.imp_right Under.of_none

/-- What a finished mode leads to was placed where it belongs. -/
structure Keeps (x : Ledger) (i : Nat) (m : CompiledMode) : Prop where
  ends : m.endsWithParent = true → ∃ terminator, x.under i = some terminator ∧
    m.terminator = endedBy (m.ending.map Regex.Expr.source) terminator
  endless : m.ending = none → m.terminator = "" ∨ x.Under (some m.terminator) i
  starts : ∀ k, m.starts = some k → x.Placed i (x.under i) k
  contains : ∀ c ∈ m.contains, x.Placed i (some m.terminator) c ∨ c = i ∧ i ∈ x.arena.selves

theorem Keeps.mono {i : Nat} {m : CompiledMode} (h : x.Keeps i m) (hi : i < x.arena.slots.size)
    (hxy : Le x y) : y.Keeps i m where
  ends he := by
    rw [hxy.under i hi]
    exact h.ends he
  endless he := (h.endless he).imp_right (·.mono hxy)
  starts k hk := by
    rw [hxy.under i hi]
    exact (h.starts k hk).mono hxy
  contains c hc := (h.contains c hc).imp (·.mono hxy) (And.imp_right (hxy.selves i))

structure Sound (x : Ledger) : Prop where
  shared : ∀ place i, (place, i) ∈ x.arena.shared → x.Under none i
  keeps : ∀ i m, x.arena.slots[i]? = some (some m) → x.Keeps i m

/-- The modes around were placed where those around them end. -/
def Encloses (x : Ledger) : List Enclosing → Prop
  | [] => True
  | e :: outer => x.Under (some (terminatorOf outer)) e.id ∧ x.Encloses outer

theorem Encloses.mono (h : x.Encloses around) (hxy : Le x y) : y.Encloses around := by
  induction around with
  | nil => trivial
  | cons e outer ih => exact ⟨h.1.mono hxy, ih h.2⟩

theorem copiesAround_under {place : Place} (h : x.Encloses around) :
    ∀ copy ∈ copiesAround place around, x.Under (some copy.2) copy.1 := by
  induction around with
  | nil => simp [copiesAround]
  | cons e outer ih =>
    rw [copiesAround]
    split
    · intro copy hcopy
      obtain rfl | hcopy := List.mem_cons.1 hcopy
      · exact h.1
      · exact ih h.2 copy hcopy
    · exact ih h.2

end Ledger

/-- What ends the mode in which a template is placed, if it has to do with that. -/
def Template.boundTo (t : Template) (around : List Enclosing) : Option String :=
  if t.mode.dependsOnParent then some (terminatorOf around) else none

namespace Ledger

variable {x y : Ledger} {own id : Nat} {t : Template} {around : List Enclosing}

theorem Under.of_boundTo (h : x.Under (t.boundTo around) id) :
    x.Under (some (terminatorOf around)) id := by
  unfold Template.boundTo at h
  split at h
  · exact h
  · exact h.of_none

/-- A mode that serves was placed where one with the same end was. -/
theorem fitting?_under (hs : x.Sound) (ha : x.Encloses around)
    (h : x.arena.fitting? t around = some id) : x.Under (t.boundTo around) id := by
  obtain ⟨place, -, h⟩ := Option.bind_eq_some_iff.1 h
  unfold Template.boundTo
  split at h
  · obtain ⟨copy, hfind, rfl⟩ := Option.map_eq_some_iff.1 h
    have hterminator : copy.2 = terminatorOf around := by
      simpa using List.find?_some hfind
    rw [if_pos ‹_›, ← hterminator]
    exact copiesAround_under ha copy (List.mem_of_find?_eq_some hfind)
  · rw [if_neg ‹_›]
    obtain ⟨before, after, hshared, -⟩ := List.lookup_eq_some_iff.1 h
    exact hs.shared place id (by simp [hshared])

def reserve (x : Ledger) (begin : String) (t : Template) (around : List Enclosing) : Ledger where
  arena := (x.arena.reserve begin (if t.mode.dependsOnParent then none else t.place)).2
  under i := if i = x.arena.slots.size then t.boundTo around else x.under i

variable {begin : String}

theorem reserve_size : (x.reserve begin t around).arena.slots.size = x.arena.slots.size + 1 := by
  simp [reserve, Arena.reserve]

theorem reserve_le : Le x (x.reserve begin t around) where
  size_le := by rw [reserve_size]; omega
  crowded _ h := h
  selves _ h := h
  under i hi := if_neg (Nat.ne_of_lt hi)

theorem reserve_own : (x.reserve begin t around).under x.arena.slots.size = t.boundTo around :=
  if_pos rfl

theorem reserve_under :
    (x.reserve begin t around).Under (t.boundTo around) x.arena.slots.size :=
  ⟨by rw [reserve_size]; omega, .inr reserve_own⟩

theorem reserve_sound (hs : x.Sound) : (x.reserve begin t around).Sound where
  shared place i h := by
    obtain h | h := List.mem_append.1 h
    · obtain ⟨_, hplace, heq⟩ := Option.map_eq_some_iff.1 (Option.mem_toList.1 h)
      cases heq
      have hfree : t.boundTo around = none := by
        rw [Template.boundTo]
        split at hplace
        · cases hplace
        · exact if_neg ‹_›
      rw [← hfree]
      exact reserve_under
    · exact (hs.shared place i h).mono reserve_le
  keeps i m h := by
    have hne : i ≠ x.arena.slots.size := by
      rintro rfl
      simp [reserve, Arena.reserve] at h
    have hold : x.arena.slots[i]? = some (some m) := by
      simpa [reserve, Arena.reserve, Array.getElem?_push, hne] using h
    exact (hs.keeps i m hold).mono (Array.getElem?_eq_some_iff.1 hold).1 reserve_le

def finish (x : Ledger) (i : Nat) (m : CompiledMode) : Ledger :=
  { x with arena := x.arena.finish i m }

theorem finish_le {i : Nat} {m : CompiledMode} : Le x (x.finish i m) where
  size_le := by simp [finish, Arena.finish]
  crowded _ h := h
  selves _ h := h
  under _ _ := rfl

theorem finish_sound {i : Nat} {m : CompiledMode} (hs : x.Sound) (hi : i < x.arena.slots.size)
    (hm : x.Keeps i m) : (x.finish i m).Sound where
  shared place k h := (hs.shared place k h).mono finish_le
  keeps k n h := by
    simp only [finish, Arena.finish] at h
    by_cases hk : i = k
    · subst hk
      rw [Array.getElem?_setIfInBounds_self_of_lt hi] at h
      cases h
      exact hm.mono hi finish_le
    · rw [Array.getElem?_setIfInBounds_ne hk] at h
      exact (hs.keeps k n h).mono (Array.getElem?_eq_some_iff.1 h).1 finish_le

theorem Sound.of_le (hs : x.Sound) (hxy : Le x y) (hshared : y.arena.shared = x.arena.shared)
    (hslots : y.arena.slots = x.arena.slots) : y.Sound where
  shared place i h := (hs.shared place i (hshared ▸ h)).mono hxy
  keeps i m h :=
    have hold : x.arena.slots[i]? = some (some m) := hslots ▸ h
    (hs.keeps i m hold).mono (Array.getElem?_eq_some_iff.1 hold).1 hxy

def note (x : Ledger) (crowded : List (Nat × Nat)) (selves : List Nat) : Ledger :=
  { x with arena := { x.arena with
      crowded := crowded ++ x.arena.crowded, selves := selves ++ x.arena.selves } }

variable {crowded : List (Nat × Nat)} {selves : List Nat}

theorem note_le : Le x (x.note crowded selves) where
  size_le := Nat.le_refl _
  crowded _ h := List.mem_append_right _ h
  selves _ h := List.mem_append_right _ h
  under _ _ := rfl

theorem note_sound (hs : x.Sound) : (x.note crowded selves).Sound := hs.of_le note_le rfl rfl

/-- Ledgers beside the arena while modes are placed within others. -/
def tracking (around : List Enclosing) (tells : Ledger → Nat → Prop)
    (mono : ∀ {x y id}, Le x y → tells x id → tells y id) : Tracking Ledger where
  tracks x a := x.arena = a ∧ x.Sound ∧ x.Encloses around
  le := Le
  tells
  refl := .refl
  trans := .trans
  mono

/-- A way to compile templates that keeps sound ledgers, and places each template where it is
bound to. -/
def Compiles (compile : Placing) : Prop :=
  ∀ ⦃t around a id a' x⦄, compile t around a = .ok (id, a') →
    x.arena = a → x.Sound → x.Encloses around →
      ∃ y, Le x y ∧ y.arena = a' ∧ y.Sound ∧ y.Under (t.boundTo around) id

theorem place_keeps {compile : Placing} (h : Compiles compile) (own : Nat)
    (around : List Enclosing) (K : Template → Prop) (tells : Ledger → Nat → Prop)
    (mono : ∀ {x y id}, Le x y → tells x id → tells y id)
    (htells : ∀ ⦃x t id⦄, K t → x.Placed own (t.boundTo around) id → tells x id) :
    (tracking around tells mono).Keeps K (Placing.place compile own · around) := by
  rintro t x a id a' ht ⟨rfl, hs, ha⟩ hid
  obtain ⟨hfit, rfl⟩ | ⟨-, rfl⟩ | hid := place_eq_ok hid
  · exact ⟨x, .refl x, ⟨rfl, hs, ha⟩, htells ht (.inr (fitting?_under hs ha hfit))⟩
  · exact ⟨x.note [(own, id)] [], note_le, ⟨rfl, note_sound hs, ha.mono note_le⟩,
      htells ht (.inl List.mem_cons_self)⟩
  · obtain ⟨y, hxy, hy, hsy, hunder⟩ := h hid rfl hs ha
    exact ⟨y, hxy, ⟨hy, hsy, ha.mono hxy⟩, htells ht (.inr hunder)⟩

end Ledger

namespace Compilation

variable {g : Grammar} {scoring : KeywordScoring} {fuel : Nat} {t : Template}
  {around : List Enclosing} {x : Ledger} {a' : Arena}
  (c : Compilation g scoring fuel t around x.arena a')

theorem contents_placed (h : Ledger.Compiles (compileMode g scoring fuel)) (hs : x.Sound)
    (ha : x.Encloses around) :
    ∃ y, (x.reserve c.begin t around).Le y ∧ y.arena = c.inner ∧ y.Sound ∧ y.Encloses around ∧
      ∀ k ∈ c.contains, y.Placed x.arena.slots.size (some c.mode.terminator) k ∨
        k = x.arena.slots.size ∧ x.arena.slots.size ∈ y.arena.selves := by
  have hr : x.Le (x.reserve c.begin t around) := Ledger.reserve_le
  have hplace := Ledger.place_keeps h x.arena.slots.size
    (⟨t.place, x.arena.slots.size, c.mode.terminator, c.p.mode⟩ :: around) (fun _ ↦ True)
    (fun y k ↦ y.Placed x.arena.slots.size (some c.mode.terminator) k ∨
      k = x.arena.slots.size ∧ x.arena.slots.size ∈ y.arena.selves)
    (fun hle hk ↦ hk.imp (·.mono hle) (And.imp_right (hle.selves _)))
    (fun _ _ _ _ hk ↦ .inl (hk.imp_right Ledger.Under.of_boundTo))
  obtain ⟨y, hle, ⟨hy, hsy, hay⟩, htells⟩ := hplace.placeEntries
    (fun _ y a ⟨hy, hsy, hay⟩ ↦ ⟨y.note [] [x.arena.slots.size], Ledger.note_le,
      ⟨hy ▸ rfl, Ledger.note_sound hsy, hay.mono Ledger.note_le⟩,
      .inr ⟨rfl, List.mem_cons_self⟩⟩)
    (fun _ _ _ _ _ ↦ trivial) (fun _ _ _ _ _ ↦ trivial)
    ⟨rfl, Ledger.reserve_sound hs, Ledger.reserve_under.of_boundTo, ha.mono hr⟩ c.contains_eq
  exact ⟨y, hle, hy, hsy, hay.2, htells⟩

section Changes

variable (hleaves : ∀ e ∈ g.extensions, e.Leaves Mode.endsWithParent)
include hleaves

theorem next_placed (h : Ledger.Compiles (compileMode g scoring fuel)) {y : Ledger}
    (hy : y.arena = c.inner) (hs : y.Sound) (ha : y.Encloses around) :
    ∃ z, y.Le z ∧ z.arena = c.outer ∧ z.Sound ∧
      ∀ k, c.starts = some k → z.Placed x.arena.slots.size (t.boundTo around) k := by
  have hplace := Ledger.place_keeps h x.arena.slots.size around
    (fun u ↦ u.mode.dependsOnParent = true → t.mode.dependsOnParent = true)
    (fun y k ↦ y.Placed x.arena.slots.size (t.boundTo around) k)
    (fun hle hk ↦ hk.mono hle)
    (fun y u k hu hk ↦ by
      by_cases hdepends : u.mode.dependsOnParent = true
      · simpa only [Template.boundTo, hdepends, hu hdepends] using hk
      · rw [Template.boundTo, if_neg hdepends] at hk
        exact hk.of_none)
  have hnext : ∀ next, c.p.mode.starts = some next → (t.next next).mode.dependsOnParent = true →
      t.mode.dependsOnParent = true := by
    intro next hnext hdepends
    rw [Template.next_mode] at hdepends
    refine Mode.prepare_dependsOnParent hleaves c.prepare_eq ?_
    rw [Mode.dependsOnParent_eq, hnext, Option.any_some, hdepends, Bool.or_true]
  obtain ⟨z, hle, ⟨hz, hsz, -⟩, htells⟩ := hplace.placeNext hnext ⟨hy, hs, ha⟩ c.starts_eq
  exact ⟨z, hle, hz, hsz, htells⟩

theorem under_eq {y : Ledger} (hy : (x.reserve c.begin t around).Le y)
    (hends : c.mode.endsWithParent = true) :
    y.under x.arena.slots.size = some (terminatorOf around) := by
  have hp : c.p.mode.endsWithParent = true := hends
  have hdepends : t.mode.dependsOnParent = true :=
    Mode.prepare_dependsOnParent hleaves c.prepare_eq
      (by rw [Mode.dependsOnParent_eq, hp, Bool.true_or])
  rw [hy.under _ Ledger.reserve_under.1, Ledger.reserve_own, Template.boundTo, if_pos hdepends]

theorem endless {y : Ledger} (hy : (x.reserve c.begin t around).Le y)
    (hending : c.mode.ending = none) :
    c.mode.terminator = "" ∨ y.Under (some c.mode.terminator) x.arena.slots.size := by
  have hnone : (terminatorsOf c.p around).1 = none := by
    have hsome := mapM_isSome c.ending_eq
    rw [show c.ending = none from hending] at hsome
    exact Option.isSome_eq_false_iff.1 hsome.symm |> Option.isNone_iff_eq_none.1
  obtain hempty | ⟨hends, houter⟩ := terminatorsOf_endless hnone
  · exact .inl hempty
  · refine .inr ⟨(Ledger.reserve_under.mono hy).1, .inr ?_⟩
    rw [c.under_eq hleaves hy hends, show c.mode.terminator = _ from houter]

theorem keeps (c : Compilation g scoring fuel t around x.arena a')
    (h : Ledger.Compiles (compileMode g scoring fuel)) (hs : x.Sound)
    (ha : x.Encloses around) :
    ∃ y, x.Le y ∧ y.arena = a' ∧ y.Sound ∧ y.Under (t.boundTo around) x.arena.slots.size := by
  obtain ⟨y, hry, hy, hsy, hay, hcontains⟩ := c.contents_placed h hs ha
  obtain ⟨z, hyz, hz, hsz, hstarts⟩ := c.next_placed hleaves h hy hsy hay
  have hrz := hry.trans hyz
  have hunder : z.Under (t.boundTo around) x.arena.slots.size := Ledger.reserve_under.mono hrz
  have hown : z.under x.arena.slots.size = t.boundTo around := by
    rw [hrz.under _ Ledger.reserve_under.1, Ledger.reserve_own]
  have hkeeps : z.Keeps x.arena.slots.size c.mode :=
    { ends := fun hends ↦ ⟨_, c.under_eq hleaves hrz hends, by rw [c.terminator_eq, if_pos hends]⟩
      endless := c.endless hleaves hrz
      starts := fun k hk ↦ hown ▸ hstarts k hk
      contains := fun k hk ↦
        (hcontains k hk).imp (·.mono hyz) (And.imp_right (hyz.selves _)) }
  refine ⟨z.finish x.arena.slots.size c.mode, (Ledger.reserve_le.trans hrz).trans Ledger.finish_le,
    ?_, Ledger.finish_sound hsz hunder.1 hkeeps, hunder.mono Ledger.finish_le⟩
  exact (congrArg (Arena.finish · x.arena.slots.size c.mode) hz).trans c.result.symm

end Changes

end Compilation

section

variable {g : Grammar} {scoring : KeywordScoring}
  (hleaves : ∀ e ∈ g.extensions, e.Leaves Mode.endsWithParent)
include hleaves

theorem compileMode_compiles (fuel : Nat) :
    Ledger.Compiles (compileMode g scoring fuel) := by
  induction fuel with
  | zero =>
    intro t around a id a' x h
    cases h
  | succ fuel ih =>
    rintro t around a id a' x h rfl hs ha
    obtain ⟨rfl, ⟨c⟩⟩ := compileMode_eq_ok h
    exact c.keeps hleaves ih hs ha

theorem Grammar.arena_ledger {a : Arena} (h : g.arena scoring = .ok a) :
    ∃ x : Ledger, x.arena = a ∧ x.Sound := by
  obtain ⟨fuel, ⟨c⟩⟩ := arena_eq_ok h
  obtain ⟨y, -, hy, hs, -⟩ := c.keeps (x := ⟨{}, fun _ ↦ none⟩) hleaves
    (compileMode_compiles hleaves fuel) ⟨by simp, by simp⟩ trivial
  exact ⟨y, hy, hs⟩

end

/-- The modes that come after a mode, each started where the one before has ended, up to the first
for which a copy for another place has to do. -/
inductive CompiledGrammar.OnChain (cg : CompiledGrammar) (crowded : List (Nat × Nat))
    (first : Nat) :
    Nat → Prop
  | here : OnChain cg crowded first first
  | next {k next : Nat} : OnChain cg crowded first k → (cg.mode k).starts = some next →
      (k, next) ∉ crowded → OnChain cg crowded first next

namespace Ledger

variable {x : Ledger} {cg : CompiledGrammar} {terminator : Option String} {first k : Nat}

theorem Under.onChain (h : x.Under terminator first) (hs : ∀ i, x.Keeps i (cg.mode i))
    (hk : cg.OnChain x.arena.crowded first k) : x.Under terminator k := by
  induction hk with
  | here => exact h
  | @next k next _ hnext hcrowded ih =>
    obtain ⟨hlt, hunder⟩ := ((hs k).starts next hnext).resolve_left hcrowded
    refine ⟨hlt, ?_⟩
    obtain hfree | hbound := ih.2
    · exact .inl (by rw [hfree] at hunder; exact or_self_iff.1 hunder)
    · exact hbound ▸ hunder

theorem Under.terminator_eq {terminator : String} (h : x.Under (some terminator) k)
    (hs : ∀ i, x.Keeps i (cg.mode i)) (hends : (cg.mode k).endsWithParent = true) :
    (cg.mode k).terminator =
      endedBy ((cg.mode k).ending.map Regex.Expr.source) terminator := by
  obtain ⟨other, hother, hterminator⟩ := (hs k).ends hends
  obtain hfree | hbound := h.2
  · rw [hfree] at hother
    cases hother
  · rw [hbound] at hother
    cases hother
    exact hterminator

theorem Under.endsWith {terminator : String} (h : x.Under (some terminator) k)
    (hs : ∀ i, x.Keeps i (cg.mode i)) (hends : (cg.mode k).endsWithParent = true) :
    EndsWith (cg.mode k).terminator terminator :=
  h.terminator_eq hs hends ▸ endsWith_endedBy _ _

end Ledger

namespace Grammar

variable {g : Grammar} {scoring : KeywordScoring} {cg : CompiledGrammar}

/-- In a compiled grammar, every mode leads to modes that were placed where they belong. -/
theorem compile_keeps (hleaves : ∀ e ∈ g.extensions, e.Leaves Mode.endsWithParent)
    (h : g.compile scoring = .ok cg) :
    ∃ x : Ledger, g.arena scoring = .ok x.arena ∧ ∀ i, x.Keeps i (cg.mode i) := by
  obtain ⟨a, ha, rfl⟩ := compile_eq_ok h
  obtain ⟨x, rfl, hs⟩ := arena_ledger hleaves ha
  refine ⟨x, ha, fun i ↦ ?_⟩
  rw [CompiledGrammar.mode, arena_modes ha]
  cases hm : x.arena.slots[i]?.join with
  | none =>
    have hstarts : (default : CompiledMode).starts = none := rfl
    have hcontains : (default : CompiledMode).contains = [] := rfl
    have hends : (default : CompiledMode).endsWithParent = false := rfl
    exact ⟨by simp [hends], fun _ ↦ .inl rfl, by simp [hstarts], by simp [hcontains]⟩
  | some m => exact hs.keeps i m (Option.join_eq_some_iff.1 hm)

/-- Each mode that ends with its parent, placed within a mode or further on the chain of one that
is, ends with what ends that mode. This does not hold for copies that have to do for others, nor
further on the chain of a mode that names itself: what comes after it was placed beside it, not
within it, and so does not end with an end of its own. -/
theorem placement_law (hext : g.extensions = []) (h : g.compile scoring = .ok cg) :
    ∃ a, g.arena scoring = .ok a ∧ ∀ p c k, c ∈ (cg.mode p).contains → (p, c) ∉ a.crowded →
      cg.OnChain a.crowded c k →
      (c = p → p ∈ a.selves → (cg.mode p).ending.isSome → k = p) →
      (cg.mode k).endsWithParent = true →
      EndsWith (cg.mode k).terminator (cg.mode p).terminator := by
  obtain ⟨x, ha, hkeeps⟩ := compile_keeps (by simp [hext]) h
  refine ⟨x.arena, ha, fun p c k hc hcrowded hk hself hends ↦ ?_⟩
  have hbound {i : Nat} (hunder : x.Under (some (cg.mode p).terminator) i)
      (hik : cg.OnChain x.arena.crowded i k) :
      EndsWith (cg.mode k).terminator (cg.mode p).terminator :=
    (hunder.onChain hkeeps hik).endsWith hkeeps hends
  obtain (hin | hunder) | ⟨rfl, hselves⟩ := (hkeeps p).contains c hc
  · exact absurd hin hcrowded
  · exact hbound hunder hk
  · by_cases hown : (cg.mode c).ending.isSome
    · rw [hself rfl hselves hown]
      exact fun _ ↦ ⟨"", by simp⟩
    · obtain hempty | hunder := (hkeeps c).endless (Option.not_isSome_iff_eq_none.1 hown)
      · exact fun hne ↦ absurd hempty hne
      · exact hbound hunder hk

/-- Brackets within brackets. What comes after a bracket ends with what is around it. -/
def brackets : Grammar where
  contains := [.inline
    { begin := some (.source "\\(")
      ending := some (.source "\\)")
      contains := [.self]
      starts := some { endsWithParent := true } }]

/-- What comes after inner brackets does not end with the outer ones. -/
theorem brackets_excepted :
    ∃ a cg, brackets.arena default = .ok a ∧ brackets.compile default = .ok cg ∧
      1 ∈ (cg.mode 1).contains ∧ (1, 1) ∉ a.crowded ∧ cg.OnChain a.crowded 1 2 ∧
      (cg.mode 2).endsWithParent = true ∧
      ¬ EndsWith (cg.mode 2).terminator (cg.mode 1).terminator ∧ 1 ∈ a.selves := by
  have hevaluated : (brackets.arena default).toOption.map (fun a ↦
      let mode (i : Nat) := a.modes[i]?.getD default
      (a.crowded, (mode 1).contains, (mode 1).starts, (mode 1).terminator,
        (mode 2).endsWithParent, (mode 2).terminator)) =
      some ([], [1], some 2, "\\)", true, "") := by
    cbv
  obtain ⟨a, ha, hvalues⟩ := eq_ok_of_map hevaluated
  obtain ⟨cg, hcg, hmode⟩ : ∃ cg, brackets.compile default = .ok cg ∧
      ∀ i, cg.mode i = a.modes[i]?.getD default :=
    ⟨_, by rw [compile, ha]; rfl, fun _ ↦ rfl⟩
  simp only [← hmode, Prod.mk.injEq] at hvalues
  obtain ⟨hcrowded, hcontains, hstarts, houter, hends, hinner⟩ := hvalues
  have hcontained : 1 ∈ (cg.mode 1).contains := by simp [hcontains]
  have hplaced (pair : Nat × Nat) : pair ∉ a.crowded := by simp [hcrowded]
  have hchain : cg.OnChain a.crowded 1 2 := .next .here hstarts (hplaced _)
  have hnot : ¬ EndsWith (cg.mode 2).terminator (cg.mode 1).terminator := by
    rw [houter, hinner]
    intro h
    obtain ⟨own, hown⟩ := h (by decide)
    exact absurd (String.append_eq_empty_iff.1 hown.symm).2 (by decide)
  refine ⟨a, cg, ha, hcg, hcontained, hplaced _, hchain, hends, hnot, ?_⟩
  obtain ⟨b, hb, hlaw⟩ := placement_law rfl hcg
  cases ha.symm.trans hb
  exact Classical.byContradiction fun hself ↦
    hnot (hlaw 1 1 2 hcontained (hplaced _) hchain (fun _ h ↦ absurd h hself) hends)

end Grammar

end SyntaxHighlight
