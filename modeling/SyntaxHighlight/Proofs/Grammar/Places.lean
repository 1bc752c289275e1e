import SyntaxHighlight.Grammar.Compile
import SyntaxHighlight.Proofs.Dictionary

/-!
The places of a grammar and the modes that are written there. There are finitely many of them, and
a place tells the template that is compiled for it.
-/
namespace SyntaxHighlight

/-! All modes that are written in a mode, each with its place. -/

mutual

/-- A mode that is written at a place, and all modes within it. -/
def Mode.writtenAt (q : Place) : Mode → List (Place × Mode)
  | m@{ contains, starts, variants, .. } =>
    (q, m) :: (Mode.entriesAt q 0 contains ++ (match starts with
      | some next => next.writtenAt (q.step .start)
      | none => []) ++ Mode.variantsAt q 0 variants)

def Mode.variantsAt (q : Place) : Nat → List Mode → List (Place × Mode)
  | _, [] => []
  | i, m :: ms => m.writtenAt (q.step (.variant i)) ++ Mode.variantsAt q (i + 1) ms

def Mode.entriesAt (q : Place) : Nat → List (Entry Mode) → List (Place × Mode)
  | _, [] => []
  | i, .inline m :: entries =>
    m.writtenAt (q.step (.child i)) ++ Mode.entriesAt q (i + 1) entries
  | i, _ :: entries => Mode.entriesAt q (i + 1) entries

end

/-- The mode to which a step leads. -/
def Mode.descend? (m : Mode) : PlaceStep → Option Mode
  | .child i =>
    match m.contains[i]? with
    | some (.inline m') => some m'
    | _ => none
  | .start => m.starts
  | .variant i => m.variants[i]?

namespace Grammar

variable (g : Grammar)

/-- All modes of a grammar, each with its place. -/
def written : List (Place × Mode) :=
  g.rootMode.writtenAt ⟨none, []⟩ ++
    g.modes.entries.flatMap fun entry ↦ entry.2.writtenAt ⟨some entry.1, []⟩

/-- The mode that a grammar has under a name, or the outermost one. -/
def origin? : Option String → Option Mode
  | none => some g.rootMode
  | some name => g.modes.get? name

/-- The mode that is written at a place. -/
def modeAt? (q : Place) : Option Mode :=
  q.steps.foldr (fun s m? ↦ m?.bind (·.descend? s)) (g.origin? q.origin)

end Grammar

/-! As many modes are written as the grammar counts. -/

mutual

theorem Mode.length_writtenAt (q : Place) (m : Mode) : (m.writtenAt q).length = m.count := by
  match m with
  | { contains, starts := none, variants, .. } =>
    simp only [writtenAt, count, List.length_cons, List.length_append, List.length_nil,
      Mode.length_entriesAt q 0 contains, Mode.length_variantsAt q 0 variants]
    omega
  | { contains, starts := some next, variants, .. } =>
    simp only [writtenAt, count, List.length_cons, List.length_append,
      Mode.length_entriesAt q 0 contains, next.length_writtenAt,
      Mode.length_variantsAt q 0 variants]
    omega

theorem Mode.length_variantsAt (q : Place) (i : Nat) (ms : List Mode) :
    (Mode.variantsAt q i ms).length = Mode.countAll ms := by
  match ms with
  | [] => rfl
  | m :: ms =>
    simp only [variantsAt, countAll, List.length_append, m.length_writtenAt,
      Mode.length_variantsAt q (i + 1) ms]

theorem Mode.length_entriesAt (q : Place) (i : Nat) (entries : List (Entry Mode)) :
    (Mode.entriesAt q i entries).length = Mode.countEntries entries := by
  match entries with
  | [] => rfl
  | .inline m :: entries =>
    simp only [entriesAt, countEntries, List.length_append, m.length_writtenAt,
      Mode.length_entriesAt q (i + 1) entries]
  | .self :: entries =>
    simp only [entriesAt, countEntries, Mode.length_entriesAt q (i + 1) entries]
  | .named _ :: entries =>
    simp only [entriesAt, countEntries, Mode.length_entriesAt q (i + 1) entries]

end

namespace Mode

variable {m m' : Mode} {q : Place} {s : PlaceStep}

theorem writtenAt_eq (q : Place) (m : Mode) :
    m.writtenAt q = (q, m) :: (entriesAt q 0 m.contains ++
      (m.starts.elim [] (·.writtenAt (q.step .start))) ++ variantsAt q 0 m.variants) := by
  match m with
  | { starts := none, .. } => simp only [writtenAt, Option.elim]
  | { starts := some next, .. } => simp only [writtenAt, Option.elim]

theorem self_mem_writtenAt (q : Place) (m : Mode) : (q, m) ∈ m.writtenAt q := by
  rw [writtenAt_eq]
  exact List.mem_cons_self

theorem sublist_entriesAt {entries : List (Entry Mode)} {i k : Nat}
    (h : entries[i]? = some (.inline m)) :
    (m.writtenAt (q.step (.child (k + i)))).Sublist (entriesAt q k entries) := by
  induction entries generalizing i k with
  | nil => cases h
  | cons entry entries ih =>
    cases i with
    | zero =>
      cases h
      rw [entriesAt]
      exact List.sublist_append_left _ _
    | succ i =>
      have hrest := ih (k := k + 1) (i := i) h
      rw [show k + 1 + i = k + (i + 1) by omega] at hrest
      cases entry with
      | inline first =>
        rw [entriesAt]
        exact hrest.trans (List.sublist_append_right _ _)
      | self => simpa only [entriesAt] using hrest
      | named name => simpa only [entriesAt] using hrest

theorem sublist_variantsAt {ms : List Mode} {i k : Nat} (h : ms[i]? = some m) :
    (m.writtenAt (q.step (.variant (k + i)))).Sublist (variantsAt q k ms) := by
  induction ms generalizing i k with
  | nil => cases h
  | cons first ms ih =>
    rw [variantsAt]
    cases i with
    | zero =>
      cases h
      exact List.sublist_append_left _ _
    | succ i =>
      have hrest := ih (k := k + 1) (i := i) h
      rw [show k + 1 + i = k + (i + 1) by omega] at hrest
      exact hrest.trans (List.sublist_append_right _ _)

/-- What is written within a mode is written within the mode around it. -/
theorem sublist_writtenAt (h : m.descend? s = some m') :
    (m'.writtenAt (q.step s)).Sublist (m.writtenAt q) := by
  rw [m.writtenAt_eq]
  refine .cons _ ?_
  cases s with
  | child i =>
    unfold descend? at h
    simp only at h
    split at h
    · cases h
      rename_i hentry
      have hsub := sublist_entriesAt (q := q) (k := 0) hentry
      rw [Nat.zero_add] at hsub
      exact hsub.trans ((List.sublist_append_left _ _).trans (List.sublist_append_left _ _))
    · cases h
  | start =>
    have h : m.starts = some m' := h
    rw [h]
    exact (List.sublist_append_right _ _).trans (List.sublist_append_left _ _)
  | variant i =>
    have hsub := sublist_variantsAt (q := q) (k := 0) (show m.variants[i]? = some m' from h)
    rw [Nat.zero_add] at hsub
    exact hsub.trans (List.sublist_append_right _ _)

end Mode

namespace Grammar

variable {g : Grammar} {q : Place} {m m' : Mode}

theorem length_written (g : Grammar) : g.written.length = g.count := by
  have hall : ∀ entries : List (String × Mode),
      (entries.flatMap fun entry ↦ entry.2.writtenAt ⟨some entry.1, []⟩).length =
        Mode.countAll (entries.map Prod.snd) := by
    intro entries
    induction entries with
    | nil => rfl
    | cons entry entries ih =>
      simp only [List.flatMap_cons, List.length_append, Mode.length_writtenAt, ih, List.map_cons,
        Mode.countAll]
  rw [written, count, List.length_append, Mode.length_writtenAt, hall]

theorem modeAt?_step (q : Place) (s : PlaceStep) :
    g.modeAt? (q.step s) = (g.modeAt? q).bind (·.descend? s) := rfl

theorem modeAt?_child (hm : g.modeAt? q = some m) {i : Nat}
    (h : m.contains[i]? = some (.inline m')) : g.modeAt? (q.step (.child i)) = some m' := by
  simp only [modeAt?_step, hm, Option.bind_some, Mode.descend?, h]

theorem modeAt?_start (hm : g.modeAt? q = some m) (h : m.starts = some m') :
    g.modeAt? (q.step .start) = some m' := by
  simp only [modeAt?_step, hm, Option.bind_some, Mode.descend?, h]

theorem modeAt?_variant (hm : g.modeAt? q = some m) {i : Nat} (h : m.variants[i]? = some m') :
    g.modeAt? (q.step (.variant i)) = some m' := by
  simp only [modeAt?_step, hm, Option.bind_some, Mode.descend?, h]

theorem sublist_flatMap {α β : Type} {x : α} {xs : List α} (h : x ∈ xs) (f : α → List β) :
    (f x).Sublist (xs.flatMap f) := by
  obtain ⟨before, after, rfl⟩ := List.append_of_mem h
  rw [List.flatMap_append, List.flatMap_cons]
  exact (List.sublist_append_left _ _).trans (List.sublist_append_right _ _)

theorem sublist_written (h : g.modeAt? q = some m) : (m.writtenAt q).Sublist g.written := by
  obtain ⟨origin, steps⟩ := q
  induction steps generalizing m with
  | nil =>
    cases origin with
    | none =>
      cases h
      exact List.sublist_append_left _ _
    | some name =>
      refine (?_ : List.Sublist _ _).trans (List.sublist_append_right _ _)
      exact sublist_flatMap (Dictionary.mem_of_get? h)
        fun entry ↦ entry.2.writtenAt ⟨some entry.1, []⟩
  | cons s steps ih =>
    obtain ⟨outer, houter, hs⟩ := Option.bind_eq_some_iff.1 h
    exact (Mode.sublist_writtenAt (q := ⟨origin, steps⟩) hs).trans (ih houter)

theorem mem_written (h : g.modeAt? q = some m) : (q, m) ∈ g.written :=
  (sublist_written h).subset (m.self_mem_writtenAt q)

/-- A mode is no larger than the grammar in which it is written. -/
theorem count_le (h : g.modeAt? q = some m) : m.count ≤ g.count := by
  rw [← m.length_writtenAt q, ← g.length_written]
  exact (sublist_written h).length_le

end Grammar

/-! The templates that are compiled for places. -/

def Grammar.templateAt? (g : Grammar) : Place → Option Template
  | ⟨origin, .variant i :: steps⟩ => do
    let m ← g.modeAt? ⟨origin, steps⟩
    let v ← m.variants[i]?
    pure ((Template.written m ⟨origin, steps⟩).variantAt i v)
  | q => (g.modeAt? q).map (Template.written · q)

/-- A template whose contents, and what follows it, are written in the grammar. -/
structure Template.Of (g : Grammar) (t : Template) : Prop where
  plain : t.mode.beforeMatch = none
  madeUp : t.madeUp = false
  contents : ∀ i m, t.mode.contains[i]? = some (.inline m) →
    g.modeAt? (t.contents.step (.child i)) = some m
  following : ∀ m, t.mode.starts = some m → g.modeAt? (t.following.step .start) = some m

/-- The number of modes that start one after another where the mode has ended. -/
def Mode.startsLength : Mode → Nat
  | { starts, .. } =>
    match starts with
    | some next => next.startsLength + 1
    | none => 0

theorem Mode.startsLength_eq (m : Mode) : m.startsLength = m.starts.elim 0 (·.startsLength + 1) := by
  match m with
  | { starts := none, .. } => simp only [startsLength, Option.elim]
  | { starts := some next, .. } => simp only [startsLength, Option.elim]

theorem Mode.startsLength_lt_count (m : Mode) : m.startsLength < m.count := by
  match m with
  | { starts := none, .. } =>
    simp only [startsLength, count]
    omega
  | { starts := some next, .. } =>
    have hnext := next.startsLength_lt_count
    simp only [startsLength, count]
    omega

namespace Grammar

variable {g : Grammar} {q : Place} {m : Mode} {t u : Template}

/-- The modes of the grammar can all be matched without anything before them. -/
def Plain (g : Grammar) : Prop := ∀ w ∈ g.written, w.2.beforeMatch = none

theorem Plain.modeAt? (h : g.Plain) (hm : g.modeAt? q = some m) : m.beforeMatch = none :=
  h _ (mem_written hm)

theorem of_root (g : Grammar) : (Template.root g.rootMode).Of g where
  plain := rfl
  madeUp := rfl
  contents _ _ h := modeAt?_child (q := ⟨none, []⟩) rfl h
  following m h := by cases h

theorem of_written (h : g.Plain) (hm : g.modeAt? q = some m) : (Template.written m q).Of g where
  plain := h.modeAt? hm
  madeUp := rfl
  contents _ _ h := modeAt?_child hm h
  following _ h := modeAt?_start hm h

theorem of_variantAt (h : g.Plain) (hm : g.modeAt? q = some m) {i : Nat} {v : Mode}
    (hv : m.variants[i]? = some v) : ((Template.written m q).variantAt i v).Of g := by
  have hvat := modeAt?_variant hm hv
  have hbase := of_written h hm
  have hover := of_written h hvat
  refine ⟨?_, rfl, fun k m' hm' ↦ ?_, fun m' hm' ↦ ?_⟩
  · simp [Template.variantAt, Mode.overlay, Template.written, h.modeAt? hm, h.modeAt? hvat]
  · simp only [Template.variantAt, Mode.overlay] at hm' ⊢
    split at hm'
    · rename_i hempty
      rw [if_pos hempty]
      exact hbase.contents k m' hm'
    · rename_i hempty
      rw [if_neg hempty]
      exact hover.contents k m' hm'
  · simp only [Template.variantAt, Mode.overlay] at hm' ⊢
    cases hstarts : v.starts with
    | none =>
      rw [hstarts] at hm'
      exact hbase.following m' hm'
    | some next =>
      rw [hstarts] at hm'
      exact hover.following m' (hstarts.trans hm')

theorem of_templateAt? (h : g.Plain) (ht : g.templateAt? q = some t) : t.Of g := by
  unfold templateAt? at ht
  split at ht
  · obtain ⟨m, hm, ht⟩ := Option.bind_eq_some_iff.1 ht
    obtain ⟨v, hv, ht⟩ := Option.bind_eq_some_iff.1 ht
    cases ht
    exact of_variantAt h hm hv
  · obtain ⟨m, hm, rfl⟩ := Option.map_eq_some_iff.1 ht
    exact of_written h hm

theorem exists_modeAt? (ht : g.templateAt? q = some t) : ∃ m, g.modeAt? q = some m := by
  unfold templateAt? at ht
  split at ht
  · obtain ⟨m, hm, ht⟩ := Option.bind_eq_some_iff.1 ht
    obtain ⟨v, hv, -⟩ := Option.bind_eq_some_iff.1 ht
    exact ⟨v, modeAt?_variant hm hv⟩
  · obtain ⟨m, hm, -⟩ := Option.map_eq_some_iff.1 ht
    exact ⟨m, hm⟩

theorem startsLength_le (ht : t.Of g) : t.mode.startsLength ≤ g.count := by
  rw [t.mode.startsLength_eq]
  cases hstarts : t.mode.starts with
  | none => exact Nat.zero_le _
  | some next =>
    have hcount := count_le (ht.following next hstarts)
    have hlt := next.startsLength_lt_count
    simp only [Option.elim]
    omega

end Grammar

/-- A template that is compiled for the place that it has. -/
def Template.Placed (g : Grammar) (t : Template) : Prop :=
  ∃ q, t.place = some q ∧ g.templateAt? q = some t

namespace Template

variable {g : Grammar} {q : Place} {m : Mode} {t u : Template}

theorem Placed.of (h : g.Plain) (ht : t.Placed g) : t.Of g := by
  obtain ⟨q, -, ht⟩ := ht
  exact Grammar.of_templateAt? h ht

theorem Placed.eq (ht : t.Placed g) (hu : u.Placed g) (h : t.place = u.place) : t = u := by
  obtain ⟨q, hq, ht⟩ := ht
  obtain ⟨r, hr, hu⟩ := hu
  cases hq.symm.trans (h.trans hr)
  exact Option.some.inj (ht.symm.trans hu)

theorem placed_alternatives (hm : g.modeAt? q = some m)
    (hwritten : g.templateAt? q = some (written m q)) (hu : u ∈ (written m q).alternatives) :
    u.Placed g := by
  unfold alternatives at hu
  split at hu
  · cases List.mem_singleton.1 hu
    exact ⟨q, rfl, hwritten⟩
  · obtain ⟨i, hi, rfl⟩ := List.mem_mapIdx.1 hu
    have hv : m.variants[i]? = some _ := List.getElem?_eq_getElem hi
    refine ⟨q.step (.variant i), rfl, ?_⟩
    simp only [Place.step, Grammar.templateAt?, hm, hv, Option.bind_eq_bind, Option.bind_some]
    rfl

theorem placed_child (ht : t.Of g) {i : Nat} (hm : t.mode.contains[i]? = some (.inline m))
    (hu : u ∈ (t.child i m).alternatives) : u.Placed g := by
  have hat := ht.contents i m hm
  rw [child, if_neg (by simp [ht.madeUp])] at hu
  refine placed_alternatives hat ?_ hu
  simp only [Place.step] at hat ⊢
  simp only [Grammar.templateAt?, hat, Option.map_some]

theorem placed_named {name : String} (hm : g.modes.get? name = some m)
    (hu : u ∈ (written m ⟨some name, []⟩).alternatives) : u.Placed g := by
  have hat : g.modeAt? ⟨some name, []⟩ = some m := hm
  refine placed_alternatives hat ?_ hu
  simp only [Grammar.templateAt?, hat, Option.map_some]

theorem next_mode (t : Template) (mode : Mode) : (t.next mode).mode = mode := by
  unfold next
  split <;> rfl

theorem placed_next (ht : t.Of g) (hm : t.mode.starts = some m) : (t.next m).Placed g := by
  have hat := ht.following m hm
  rw [next, if_neg (by simp [ht.plain])]
  refine ⟨t.following.step .start, rfl, ?_⟩
  simp only [Place.step] at hat ⊢
  simp only [Grammar.templateAt?, hat, Option.map_some]

end Template

end SyntaxHighlight
