import SyntaxHighlight.Proofs.Grammar.Arena
import SyntaxHighlight.Proofs.Mode.Prepared
import SyntaxHighlight.Proofs.Rule.Resumable

/-! What the modes of a compiled grammar lead to: modes of the same grammar, but never the outermost
one. -/
namespace SyntaxHighlight

theorem mem_copiesAround {place : Place} {around : List Enclosing} {copy : Nat × String}
    (h : copy ∈ copiesAround place around) :
    ∃ e ∈ around, e.place = some place ∧ e.id = copy.1 := by
  induction around with
  | nil => cases h
  | cons e outer ih =>
    rw [copiesAround] at h
    split at h
    · rename_i hplace
      obtain rfl | h := List.mem_cons.1 h
      · exact ⟨e, List.mem_cons_self, hplace, rfl⟩
      · obtain ⟨f, hf, hid⟩ := ih h
        exact ⟨f, List.mem_cons_of_mem _ hf, hid⟩
    · obtain ⟨f, hf, hid⟩ := ih h
      exact ⟨f, List.mem_cons_of_mem _ hf, hid⟩

namespace Arena

variable {a a' : Arena} {around : List Enclosing} {t : Template} {id : Nat}

/-- A number that has been given out, and not to the outermost mode. -/
def HasInner (a : Arena) (id : Nat) : Prop := 0 < id ∧ id < a.slots.size

theorem HasInner.mono (h : a.HasInner id) (hle : a.slots.size ≤ a'.slots.size) : a'.HasInner id :=
  ⟨h.1, Nat.lt_of_lt_of_le h.2 hle⟩

/-- A mode that leads to other modes than the outermost one. -/
structure Inward (a : Arena) (m : CompiledMode) : Prop where
  contains : ∀ k ∈ m.contains, a.HasInner k
  starts : ∀ k, m.starts = some k → a.HasInner k

theorem Inward.mono {m : CompiledMode} (h : a.Inward m) (hle : a.slots.size ≤ a'.slots.size) :
    a'.Inward m :=
  ⟨fun k hk ↦ (h.contains k hk).mono hle, fun k hk ↦ (h.starts k hk).mono hle⟩

/-- Modes that may be placed again, and what finished modes lead to, are not the outermost mode. -/
structure Linked (a : Arena) : Prop where
  shared : ∀ place i, (place, i) ∈ a.shared → a.HasInner i
  modes : a.All a.Inward

/-- The modes around have numbers. The outermost one has no place, so it is never placed again. -/
def Encloses (a : Arena) (around : List Enclosing) : Prop :=
  ∀ e ∈ around, e.id < a.slots.size ∧ (e.place.isSome → 0 < e.id)

theorem Encloses.mono (h : a.Encloses around) (hle : a.slots.size ≤ a'.slots.size) :
    a'.Encloses around :=
  fun e he ↦ ⟨Nat.lt_of_lt_of_le (h e he).1 hle, (h e he).2⟩

theorem Encloses.copy {place : Place} (h : a.Encloses around) {copy : Nat × String}
    (hcopy : copy ∈ copiesAround place around) : a.HasInner copy.1 := by
  obtain ⟨e, he, hplace, hid⟩ := mem_copiesAround hcopy
  obtain ⟨hlt, hpos⟩ := h e he
  exact hid ▸ ⟨hpos (by simp [hplace]), hlt⟩

theorem fitting?_inner (hl : a.Linked) (ha : a.Encloses around)
    (h : a.fitting? t around = some id) : a.HasInner id := by
  obtain ⟨place, -, h⟩ := Option.bind_eq_some_iff.1 h
  split at h
  · obtain ⟨copy, hfind, rfl⟩ := Option.map_eq_some_iff.1 h
    exact ha.copy (List.mem_of_find?_eq_some hfind)
  · obtain ⟨before, after, hshared, -⟩ := List.lookup_eq_some_iff.1 h
    exact hl.shared place id (by simp [hshared])

theorem makeshift?_inner (ha : a.Encloses around) (h : t.makeshift? around = some id) :
    a.HasInner id := by
  obtain ⟨place, -, h⟩ := Option.bind_eq_some_iff.1 h
  split at h
  · rw [nearestCopy?] at h
    split at h
    · obtain ⟨copy, hhead, rfl⟩ := Option.map_eq_some_iff.1 h
      exact ha.copy (List.mem_of_head? hhead)
    · cases h
  · cases h

theorem Linked.noted (h : a.Linked) (crowded : List (Nat × Nat)) (selves : List Nat) :
    Linked { a with crowded, selves } :=
  ⟨h.shared, fun i m hm ↦ (h.modes i m hm).mono (Nat.le_refl _)⟩

theorem Linked.reserve (h : a.Linked) (begin : String) {place : Option Place}
    (hplace : place.isSome → 0 < a.slots.size) : (a.reserve begin place).2.Linked := by
  have hsize : (a.reserve begin place).2.slots.size = a.slots.size + 1 := by simp [Arena.reserve]
  refine ⟨fun p i hi ↦ ?_, fun i m hm ↦ ?_⟩
  · obtain hi | hi := List.mem_append.1 hi
    · obtain ⟨q, hq, heq⟩ := Option.map_eq_some_iff.1 (Option.mem_toList.1 hi)
      cases heq
      exact ⟨hplace (by simp [hq]), by rw [hsize]; exact Nat.lt_succ_self _⟩
    · exact (h.shared p i hi).mono (by omega)
  · exact (All.reserve h.modes begin place i m hm).mono (by omega)

theorem Linked.finish (h : a.Linked) {id : Nat} {mode : CompiledMode} (hmode : a.Inward mode) :
    (a.finish id mode).Linked := by
  have hsize : (a.finish id mode).slots.size = a.slots.size := by simp [Arena.finish]
  refine ⟨fun p i hi ↦ (h.shared p i hi).mono (Nat.le_of_eq hsize.symm), fun i m hm ↦ ?_⟩
  exact (All.finish h.modes hmode i m hm).mono (Nat.le_of_eq hsize.symm)

/-- The arena while modes are placed within the outermost one. -/
def linking (around : List Enclosing) : Tracking Arena where
  tracks x a := x = a ∧ 0 < a.slots.size ∧ a.Linked ∧ a.Encloses around
  le := Arena.Extends
  tells := HasInner
  refl := .refl
  trans := .trans
  mono hle h := h.mono hle.size_le

end Arena

/-- A way to compile templates that keeps the arena linked. -/
def Placing.Links (compile : Placing) : Prop :=
  ∀ ⦃t around a id a'⦄, compile t around a = .ok (id, a') → 0 < a.slots.size → a.Linked →
    a.Encloses around → a.Extends a' ∧ a'.Linked ∧ a'.HasInner id

theorem Placing.Links.place_keeps {compile : Placing} (h : compile.Links) (own : Nat)
    (around : List Enclosing) :
    (Arena.linking around).Keeps (fun _ ↦ True) (Placing.place compile own · around) := by
  rintro t x a id a' - ⟨rfl, hpos, hl, ha⟩ hid
  obtain ⟨hfit, rfl⟩ | ⟨hmakeshift, rfl⟩ | hid := place_eq_ok hid
  · exact ⟨_, .refl _, ⟨rfl, hpos, hl, ha⟩, Arena.fitting?_inner hl ha hfit⟩
  · exact ⟨_, Arena.extends_note _ _ _, ⟨rfl, hpos, hl.noted _ _, ha⟩,
      Arena.makeshift?_inner ha hmakeshift⟩
  · obtain ⟨hext, hl', hinner⟩ := h hid hpos hl ha
    exact ⟨a', hext, ⟨rfl, Nat.lt_of_lt_of_le hpos hext.size_le, hl', ha.mono hext.size_le⟩, hinner⟩

variable {g : Grammar} {scoring : KeywordScoring}

namespace Compilation

variable {fuel : Nat} {t : Template} {around : List Enclosing} {a a' : Arena}
  (c : Compilation g scoring fuel t around a a')

/-- Only the outermost mode may be compiled first. It has no place, and does not name itself. -/
theorem linked (h : (compileMode g scoring fuel).Links) (hl : a.Linked) (ha : a.Encloses around)
    (hplace : t.place.isSome → 0 < a.slots.size)
    (hself : .self ∈ c.p.mode.contains → 0 < a.slots.size) : a'.Linked := by
  let reserved := (a.reserve c.begin (if t.mode.dependsOnParent then none else t.place)).2
  have hsize : reserved.slots.size = a.slots.size + 1 := by simp [reserved, Arena.reserve]
  have hpos : 0 < reserved.slots.size := by omega
  have hreserved : reserved.Linked := hl.reserve c.begin fun hsome ↦ hplace (by
    split at hsome
    · cases hsome
    · exact hsome)
  have hwithin : reserved.Encloses
      (⟨t.place, a.slots.size, (terminatorsOf c.p around).2, c.p.mode⟩ :: around) := by
    intro e he
    obtain rfl | he := List.mem_cons.1 he
    · exact ⟨by simp only; omega, hplace⟩
    · exact ha.mono (by omega) e he
  obtain ⟨x, hx, ⟨rfl, hposx, hlx, hax⟩, hcontains⟩ :=
    (h.place_keeps a.slots.size _).placeEntries
      (fun hmem x b hb ↦ ⟨_, hb.1 ▸ Arena.extends_note _ _ _,
        ⟨rfl, hb.2.1, hb.2.2.1.noted _ _, hb.2.2.2⟩, hself hmem,
        (hb.2.2.2 _ List.mem_cons_self).1⟩)
      (fun _ _ _ _ _ ↦ trivial) (fun _ _ _ _ _ ↦ trivial) ⟨rfl, hpos, hreserved, hwithin⟩
      c.contains_eq
  obtain ⟨y, hy, ⟨rfl, -, hly, -⟩, hstarts⟩ :=
    (h.place_keeps a.slots.size around).placeNext (fun _ _ ↦ trivial)
      ⟨rfl, hposx, hlx, fun e he ↦ hax e (List.mem_cons_of_mem _ he)⟩ c.starts_eq
  rw [c.result]
  exact hly.finish ⟨fun k hk ↦ (hcontains k hk).mono hy.size_le, hstarts⟩

theorem begins_mem {rule : Rule} (hrule : rule ∈ c.mode.matcher.rules) {k : Nat}
    (hk : rule.kind = .begins k) : k ∈ c.mode.contains := by
  have hrules : c.mode.matcher.rules =
      rulesOf c.outer.begins c.contains (terminatorsOf c.p around).2 c.p.illegalSource? :=
    (Rule.Resumable.ofRules_eq_ok c.matcher_eq).1
  rw [hrules, rulesOf] at hrule
  obtain hrule | hrule := List.mem_append.1 hrule
  · obtain hrule | hrule := List.mem_append.1 hrule
    · obtain ⟨id, hid, rfl⟩ := List.mem_map.1 hrule
      cases hk
      exact hid
    · split at hrule
      · cases hrule
      · cases List.mem_singleton.1 hrule
        cases hk
  · obtain ⟨source, -, rfl⟩ := Option.map_eq_some_iff.1 (Option.mem_toList.1 hrule)
    cases hk

end Compilation

theorem compileMode_links (fuel : Nat) : (compileMode g scoring fuel).Links := by
  induction fuel with
  | zero =>
    intro t around a id a' h
    cases h
  | succ fuel ih =>
    intro t around a id a' h hpos hl ha
    have hext := compileMode_extends h
    obtain ⟨rfl, ⟨c⟩⟩ := compileMode_eq_ok h
    exact ⟨hext, c.linked ih hl ha (fun _ ↦ hpos) fun _ ↦ hpos, hpos,
      (Array.getElem?_eq_some_iff.1 c.slot).1⟩

namespace CompiledGrammar

variable {cg : CompiledGrammar}

/-- The number of a mode other than the outermost one. -/
def IsInner (cg : CompiledGrammar) (id : Nat) : Prop := id ≠ rootId ∧ id < cg.modes.size

/-- Modes lead to modes of the same grammar, and never to the outermost one. -/
structure Wired (cg : CompiledGrammar) : Prop where
  root : rootId < cg.modes.size
  starts : ∀ i k, (cg.mode i).starts = some k → cg.IsInner k
  begins : ∀ i, ∀ rule ∈ (cg.mode i).matcher.rules, ∀ k, rule.kind = .begins k → cg.IsInner k

end CompiledGrammar

namespace Grammar

variable {a : Arena} {cg : CompiledGrammar}

theorem rootMode_contains {p : Prepared} (h : g.rootMode.prepare none g.extensions = .ok p) :
    p.mode.contains = g.contains := by
  obtain ⟨named, wrapped, changed, begin, ending, hnamed, hwrapped, hchanged, hmode, -⟩ :=
    Mode.prepare_eq_ok h
  cases hnamed
  cases hwrapped
  rw [hmode]
  exact (changed.alike_spelledOut false).contains.trans (Mode.extended_contains hchanged)

theorem arena_linked (h : g.arena scoring = .ok a) : a.Linked := by
  have hnoself : Entry.self ∉ g.contains := by
    intro hmem
    have hany : g.contains.any Entry.isSelf = true := List.any_eq_true.2 ⟨_, hmem, rfl⟩
    rw [arena, if_pos hany] at h
    cases h
  obtain ⟨fuel, ⟨c⟩⟩ := arena_eq_ok h
  refine c.linked (compileMode_links fuel) ⟨by simp, by simp [Arena.All]⟩ (by simp [Arena.Encloses])
    (by simp [Template.root]) fun hself ↦ ?_
  rw [rootMode_contains c.prepare_eq] at hself
  exact absurd hself hnoself

theorem lt_modes_size (h : g.arena scoring = .ok a) {i : Nat} (hi : i < a.slots.size) :
    i < a.modes.size := by
  obtain ⟨m, hm⟩ := arena_finished h hi
  have hmodes := arena_modes h i
  rw [hm] at hmodes
  exact (Array.getElem?_eq_some_iff.1 hmodes).1

theorem compile_begins_mem (h : g.compile scoring = .ok cg) (i : Nat) {rule : Rule}
    (hrule : rule ∈ (cg.mode i).matcher.rules) {k : Nat} (hk : rule.kind = .begins k) :
    k ∈ (cg.mode i).contains :=
  compile_all h (Q := fun m ↦ ∀ rule ∈ m.matcher.rules, ∀ k, rule.kind = .begins k →
    k ∈ m.contains) nofun (fun c _ hrule _ hk ↦ c.begins_mem hrule hk) i rule hrule k hk

theorem compile_inner (h : g.compile scoring = .ok cg) (i : Nat) :
    (∀ k ∈ (cg.mode i).contains, cg.IsInner k) ∧
      ∀ k, (cg.mode i).starts = some k → cg.IsInner k := by
  obtain ⟨a, ha, rfl⟩ := compile_eq_ok h
  have hinner {k : Nat} (hk : a.HasInner k) : CompiledGrammar.IsInner
      ⟨g.name, g.caseInsensitive, g.classNameAliases, g.emitTokens, a.modes⟩ k :=
    ⟨Nat.ne_of_gt hk.1, lt_modes_size ha hk.2⟩
  have hinward : a.Inward (CompiledGrammar.mode
      ⟨g.name, g.caseInsensitive, g.classNameAliases, g.emitTokens, a.modes⟩ i) := by
    rw [CompiledGrammar.mode, arena_modes ha]
    cases hm : a.slots[i]?.join with
    | none => exact ⟨List.forall_mem_nil _, fun _ hk ↦ by cases hk⟩
    | some m => exact (arena_linked ha).modes i m (Option.join_eq_some_iff.1 hm)
  exact ⟨fun k hk ↦ hinner (hinward.contains k hk), fun k hk ↦ hinner (hinward.starts k hk)⟩

theorem compile_wired (h : g.compile scoring = .ok cg) : cg.Wired where
  root := by
    obtain ⟨a, ha, rfl⟩ := compile_eq_ok h
    obtain ⟨fuel, ⟨c⟩⟩ := arena_eq_ok ha
    exact lt_modes_size ha (Array.getElem?_eq_some_iff.1 c.slot).1
  starts i := (compile_inner h i).2
  begins i _ hrule k hk := (compile_inner h i).1 k (compile_begins_mem h i hrule hk)

end Grammar

end SyntaxHighlight
