import SyntaxHighlight.Proofs.Grammar.Calls
import SyntaxHighlight.Proofs.Grammar.Places
import SyntaxHighlight.Proofs.Mode.Prepared

/-!
How deep the calls nest of which the compilation of a grammar consists. A mode that has nothing to
do with its parent is compiled in one call. The others are compiled a bounded number of times
within each other, so that no chain of calls is longer than what is written in the grammar allows.
-/
namespace SyntaxHighlight

variable {g : Grammar} {scoring : KeywordScoring} {n k l fuel : Nat} {c d e : Call}

/-! The order of the calls. -/

theorem Within.cases_head (h : Within g scoring n c l e) :
    (n = l ∧ c = e) ∨ ∃ k d, n = k + 1 ∧ Leads g scoring k c d ∧ Within g scoring k d l e := by
  induction h with
  | refl => exact .inl ⟨rfl, rfl⟩
  | @step fuel d e _ hlead ih =>
    obtain ⟨rfl, rfl⟩ | ⟨k, first, hk, hfirst, hrest⟩ := ih
    · exact .inr ⟨fuel, e, rfl, hlead, .refl⟩
    · exact .inr ⟨k, first, hk, hfirst, hrest.step hlead⟩

theorem Within.le (h : Within g scoring n c l e) : c.arena.Le e.arena := by
  induction h with
  | refl => exact .refl _
  | @step fuel d e _ hlead ih =>
    obtain ⟨o, -, hopened⟩ := hlead.le
    exact ih.trans ((d.le_opened o).trans hopened)

theorem Leads.answered (h : Leads g scoring fuel c d) {id : Nat} {a : Arena}
    (hc : c.answer g scoring (fuel + 1) = .ok (id, a)) :
    ∃ id' b, d.answer g scoring fuel = .ok (id', b) ∧ b.Le a := by
  have hgrows : (compileMode g scoring fuel).Grows := compileMode_grows fuel
  obtain ⟨o, contains, inner, starts, outer, matcher, ho, hcontains, hstarts, -, -, rfl⟩ :=
    Call.answer_eq_ok hc
  cases h with
  | content ho' hasks =>
    cases ho.symm.trans ho'
    obtain ⟨id', b, hd, hb⟩ := hasks.ready hgrows hcontains
    exact ⟨id', b, hd, (hb.trans (Placing.placeNext_le hgrows hstarts)).trans (.finish ..)⟩
  | next ho' hcontains' hmode haround hfit hmakeshift =>
    cases ho.symm.trans ho'
    cases hcontains.symm.trans hcontains'
    obtain ⟨hnone | hnone, -⟩ | ⟨mode, id', hmode', -, -, hd⟩ := Placing.placeNext_eq_ok hstarts
    · cases hnone.symm.trans hmode
    · exact absurd hnone haround
    · cases hmode.symm.trans hmode'
      rw [Placing.place_unserved hfit hmakeshift] at hd
      exact ⟨id', outer, hd, .finish ..⟩

theorem Within.answered (h : Within g scoring n c l e) {id : Nat} {a : Arena}
    (hc : c.answer g scoring n = .ok (id, a)) :
    ∃ id' b, e.answer g scoring l = .ok (id', b) ∧ b.Le a := by
  induction h with
  | refl => exact ⟨id, a, hc, .refl a⟩
  | step _ hlead ih =>
    obtain ⟨_, b, hd, hb⟩ := ih
    obtain ⟨id', b', he, hb'⟩ := hlead.answered hd
    exact ⟨id', b', he, hb'.trans hb⟩

/-- The number of a call has been taken when another call is made. -/
def Call.Precedes (g : Grammar) (scoring : KeywordScoring) (c d : Call) : Prop :=
  ∃ o, c.opening g scoring = .ok o ∧ (c.opened o).Le d.arena

theorem Call.Precedes.trans_le (h : c.Precedes g scoring d) (hle : d.arena.Le e.arena) :
    c.Precedes g scoring e := by
  obtain ⟨o, ho, hd⟩ := h
  exact ⟨o, ho, hd.trans hle⟩

/-- A call that comes of one that has been answered precedes what comes after. -/
theorem Within.precedes {c' : Call} (h : Within g scoring n c l d)
    (hc : c.Before g scoring n c') : d.Precedes g scoring c' := by
  obtain ⟨id, a, hanswer, hle⟩ := hc
  obtain ⟨id', b, hd, hb⟩ := h.answered hanswer
  obtain ⟨-, o, ho, hopened⟩ := Call.answer_le hd
  exact ⟨o, ho, (hopened.trans hb).trans hle⟩

/-- Of two calls that come of one, either takes its number before the other one is made. -/
theorem Within.compare (hd : Within g scoring n c k d) (he : Within g scoring n c l e) :
    d = e ∨ d.Precedes g scoring e ∨ e.Precedes g scoring d := by
  -- Where both come of the same one of the calls that `c` makes, go on there. Otherwise one of those
  -- calls has been answered, with all that comes of it, before the other one is made.
  induction n generalizing c with
  | zero =>
    obtain ⟨-, rfl⟩ | ⟨_, _, hn, -⟩ := hd.cases_head
    · obtain ⟨-, rfl⟩ | ⟨_, _, hn, -⟩ := he.cases_head
      · exact .inl rfl
      · cases hn
    · cases hn
  | succ n ih =>
    obtain ⟨-, rfl⟩ | ⟨_, d', hn, hleadd, hd⟩ := hd.cases_head
    · obtain ⟨-, rfl⟩ | ⟨_, e', hn, hleade, he⟩ := he.cases_head
      · exact .inl rfl
      · cases hn
        exact .inr (.inl (Call.Precedes.trans_le hleade.le he.le))
    · cases hn
      obtain ⟨-, rfl⟩ | ⟨_, e', hn, hleade, he⟩ := he.cases_head
      · exact .inr (.inr (Call.Precedes.trans_le hleadd.le hd.le))
      · cases hn
        obtain rfl | hbefore | hbefore := hleadd.ordered hleade
        · exact ih hd he
        · exact .inr (.inl ((hd.precedes hbefore).trans_le he.le))
        · exact .inr (.inr ((he.precedes hbefore).trans_le hd.le))

/-! Where the templates of the calls are written. -/

namespace Placing

variable {compile : Placing} {own : Nat} {around : List Enclosing} {named : Dictionary Mode}
  {t u : Template} {a b : Arena}

theorem AsksAll.mem {ts : List Template} (h : AsksAll compile own around ts a u b) : u ∈ ts := by
  induction h with
  | here => exact List.mem_cons_self
  | there _ _ ih => exact List.mem_cons_of_mem _ ih

theorem AsksEntries.mem {i : Nat} {entries : List (Entry Mode)}
    (h : AsksEntries compile own around named t i entries a u b) :
    ∃ j entry, entries[j]? = some entry ∧ u ∈ templatesOf named t (i + j) entry := by
  induction h with
  | @here i entry entries u a d h => exact ⟨0, entry, rfl, h.mem⟩
  | @there i entry entries u a b d ids _ _ ih =>
    obtain ⟨j, other, hother, hu⟩ := ih
    rw [show i + 1 + j = i + (j + 1) by omega] at hu
    exact ⟨j + 1, other, hother, hu⟩

theorem placed_templatesOf (ht : t.Of g) {i : Nat} {entry : Entry Mode}
    (hentry : t.mode.contains[i]? = some entry) (hu : u ∈ templatesOf g.modes t i entry) :
    u.Placed g := by
  cases entry with
  | self => cases hu
  | named name =>
    simp only [templatesOf] at hu
    split at hu
    · exact Template.placed_named ‹_› hu
    · cases hu
  | inline mode => exact Template.placed_child ht hentry hu

end Placing

/-- The modes of a grammar are compiled as they are written: nothing changes them, and none of them
is wrapped into another one. -/
structure Grammar.AsWritten (g : Grammar) : Prop where
  extensions : g.extensions = []
  plain : g.Plain

theorem Call.opening_contents (hg : g.AsWritten) (hc : c.template.Of g) {o : Opening}
    (h : c.opening g scoring = .ok o) :
    o.p.mode.contains = c.template.mode.contains ∧ o.p.mode.starts = c.template.mode.starts := by
  have hp := (opening_eq_ok h).1
  rw [hg.extensions] at hp
  exact Mode.prepare_contents hc.plain hp

theorem Leads.placed (hg : g.AsWritten) (hc : c.template.Of g) (h : Leads g scoring fuel c d) :
    d.template.Placed g := by
  cases h with
  | content ho hasks =>
    obtain ⟨i, entry, hentry, hu⟩ := hasks.mem
    rw [(Call.opening_contents hg hc ho).1] at hentry
    rw [Nat.zero_add] at hu
    exact Placing.placed_templatesOf hc hentry hu
  | next ho _ hmode =>
    rw [(Call.opening_contents hg hc ho).2] at hmode
    exact Template.placed_next hc hmode

theorem Within.of (hg : g.AsWritten) (h : Within g scoring n g.firstCall l d) :
    d.template.Of g := by
  induction h with
  | refl => exact g.of_root
  | step _ hlead ih => exact (hlead.placed hg ih).of hg.plain

theorem Within.placed (hg : g.AsWritten) (h : Within g scoring n g.firstCall l d) {q : Place}
    (hq : d.template.place = some q) : d.template.Placed g := by
  cases h with
  | refl => cases hq
  | step h hlead => exact hlead.placed hg (h.of hg)

/-- When the number of a mode that has nothing to do with its parent has been taken, no call is made
for the mode any more. -/
theorem Within.not_precedes (h : Within g scoring n g.firstCall l d) {q : Place}
    (hq : d.template.place = some q) (hfree : d.template.mode.dependsOnParent = false)
    (hc : c.template = d.template) : ¬ c.Precedes g scoring d := by
  rintro ⟨o, -, hle⟩
  cases h with
  | refl => cases hq
  | step _ hlead =>
    have hmem := hle.shared.subset (Call.mem_opened (hc ▸ hq) (hc ▸ hfree) o)
    have hfit := hlead.unserved.1
    simp only [Arena.fitting?, hq, hfree, Option.bind_eq_bind, Option.bind_some,
      Bool.false_eq_true, if_false] at hfit
    exact bne_iff_ne.1 (List.lookup_eq_none_iff.1 hfit _ hmem) rfl

/-- A mode that has nothing to do with its parent is compiled in one call only. -/
theorem Within.eq_of_place (hg : g.AsWritten) (hd : Within g scoring n g.firstCall k d)
    (he : Within g scoring n g.firstCall l e) {q : Place} (hdq : d.template.place = some q)
    (heq : e.template.place = some q) (hfree : d.template.mode.dependsOnParent = false) :
    d = e := by
  have htemplate : d.template = e.template :=
    (hd.placed hg hdq).eq (he.placed hg heq) (hdq.trans heq.symm)
  obtain rfl | hbefore | hbefore := hd.compare he
  · rfl
  · exact absurd hbefore (he.not_precedes heq (htemplate ▸ hfree) htemplate)
  · exact absurd hbefore (hd.not_precedes hdq hfree htemplate.symm)

/-! How often a mode is placed within itself. -/

/-- The places of the mode that is compiled and of the modes around it. -/
def Call.chain (c : Call) : List (Option Place) :=
  c.template.place :: c.around.map Enclosing.place

/-- How often a mode may occur among those that are compiled within each other. -/
def Grammar.placements (g : Grammar) : Option Place → Nat
  | none => 1
  | some q =>
    match g.templateAt? q with
    | some t => if t.mode.dependsOnParent then maxNestedPlacements else 1
    | none => 0

theorem Grammar.placements_le (g : Grammar) (place : Option Place) :
    g.placements place ≤ maxNestedPlacements := by
  unfold placements
  split
  · exact Nat.le_add_left 1 7
  · split
    · split
      · exact Nat.le_refl _
      · exact Nat.le_add_left 1 7
    · exact Nat.zero_le _

/-- A mode is compiled within the one that contains it, and next to the one that starts it. -/
theorem Leads.around (h : Leads g scoring fuel c d) :
    (∃ o, c.opening g scoring = .ok o ∧ d.around = c.within o) ∨
      (d.around = c.around ∧ ∃ o mode, c.opening g scoring = .ok o ∧ o.p.mode.starts = some mode ∧
        d.template = c.template.next mode) := by
  cases h with
  | content ho _ => exact .inl ⟨_, ho, rfl⟩
  | next ho _ hmode => exact .inr ⟨rfl, _, _, ho, hmode, rfl⟩

theorem Leads.around_suffix (h : Leads g scoring fuel c d) :
    d.around.map Enclosing.place <:+ c.chain := by
  obtain ⟨o, -, haround⟩ | ⟨haround, -⟩ := h.around
  · rw [haround]
    exact List.suffix_rfl
  · rw [haround]
    exact List.suffix_cons _ _

theorem length_copiesAround (q : Place) (around : List Enclosing) :
    (copiesAround q around).length = (around.map Enclosing.place).count (some q) := by
  induction around with
  | nil => rfl
  | cons e outer ih =>
    rw [copiesAround, List.map_cons, List.count_cons]
    split
    · rename_i hplace
      simp [hplace, ih]
    · rename_i hplace
      simp [hplace, ih]

/-- Unless a mode is placed within itself as often as it may be, none of the copies has to serve. -/
theorem length_lt_of_nearestCopy? {q : Place} {around : List Enclosing}
    (h : nearestCopy? q around = none) :
    (copiesAround q around).length < maxNestedPlacements := by
  unfold nearestCopy? at h
  split at h
  · rename_i hle
    rw [Option.map_eq_none_iff, List.head?_eq_none_iff] at h
    rw [h] at hle
    cases hle
  · omega

/-- The modes around a call that have nothing to do with their parents are known by their
places. -/
theorem Within.shared_around (hg : g.AsWritten) (h : Within g scoring n g.firstCall l d) {q : Place}
    {t : Template} (ht : g.templateAt? q = some t) (hfree : t.mode.dependsOnParent = false)
    (hq : some q ∈ d.around.map Enclosing.place) : ∃ id, (q, id) ∈ d.arena.shared := by
  induction h with
  | refl => cases hq
  | @step fuel d e h hlead ih =>
    obtain ⟨o, -, hle⟩ := hlead.le
    obtain hq | hq := List.mem_cons.1 (hlead.around_suffix.subset hq)
    · obtain ⟨r, hr, hplaced⟩ := h.placed hg hq.symm
      cases hq.trans hr
      cases ht.symm.trans hplaced
      exact ⟨d.number, hle.shared.subset (Call.mem_opened hr hfree o)⟩
    · obtain ⟨id, hid⟩ := ih hq
      exact ⟨id, hle.shared.subset ((d.le_opened o).shared.subset hid)⟩

/-- A mode for which a call is made is not yet among the modes around as often as it may be. -/
theorem Within.count_around_lt (hg : g.AsWritten) (h : Within g scoring n g.firstCall (fuel + 1) c)
    (hlead : Leads g scoring fuel c d) :
    (d.around.map Enclosing.place).count d.template.place < g.placements d.template.place := by
  obtain ⟨q, hq, ht⟩ := hlead.placed hg (h.of hg)
  obtain ⟨hfit, hmakeshift⟩ := hlead.unserved
  rw [hq]
  simp only [Grammar.placements, ht]
  cases hfree : d.template.mode.dependsOnParent with
  | true =>
    -- With one copy more around, the nearest would have had to serve.
    simp only [Template.makeshift?, hq, hfree, Option.bind_eq_bind, Option.bind_some,
      if_true] at hmakeshift
    rw [if_pos rfl, ← length_copiesAround]
    exact length_lt_of_nearestCopy? hmakeshift
  | false =>
    -- If it were among those around, its number would be known and would serve.
    simp only [Arena.fitting?, hq, hfree, Option.bind_eq_bind, Option.bind_some,
      Bool.false_eq_true, if_false] at hfit ⊢
    refine Nat.lt_one_iff.2 (List.count_eq_zero.2 fun hmem ↦ ?_)
    obtain ⟨id, hid⟩ := (h.step hlead).shared_around hg ht hfree hmem
    exact bne_iff_ne.1 (List.lookup_eq_none_iff.1 hfit _ hid) rfl

/-- No mode occurs more often than it may among those that are compiled within each other. -/
theorem Within.count_chain_le (hg : g.AsWritten) (h : Within g scoring n g.firstCall l d)
    (place : Option Place) : d.chain.count place ≤ g.placements place := by
  induction h with
  | refl =>
    rw [Call.chain, Grammar.firstCall, List.map_nil]
    cases place with
    | none => exact Nat.le_refl 1
    | some q => exact Nat.zero_le _
  | @step fuel d e h hlead ih =>
    rw [Call.chain]
    by_cases hplace : e.template.place = place
    · subst hplace
      rw [List.count_cons_self]
      exact h.count_around_lt hg hlead
    · rw [List.count_cons_of_ne hplace]
      exact Nat.le_trans (hlead.around_suffix.sublist.count_le _) ih

/-! How many levels the calls take. -/

theorem length_le_mul_of_count_le {α : Type} [BEq α] [LawfulBEq α] {l k : List α} {b : Nat}
    (hsub : l ⊆ k) (hcount : ∀ x, l.count x ≤ b) : l.length ≤ k.length * b := by
  induction k generalizing l with
  | nil => simp [List.subset_nil.1 hsub]
  | cons x k ih =>
    have hothers : (l.filter (· != x)).length ≤ k.length * b := by
      refine ih (fun y hy ↦ ?_) fun y ↦ Nat.le_trans (List.filter_sublist.count_le y) (hcount y)
      obtain ⟨hy, hne⟩ := List.mem_filter.1 hy
      exact (List.mem_cons.1 (hsub hy)).resolve_left (bne_iff_ne.1 hne)
    calc l.length = l.count x + (l.filter (· != x)).length := by
          simpa [List.count, List.countP_eq_length_filter, bne] using
            l.length_eq_countP_add_countP (· == x)
      _ ≤ b + k.length * b := Nat.add_le_add (hcount x) hothers
      _ = (x :: k).length * b := by rw [List.length_cons, Nat.succ_mul, Nat.add_comm]

/-- So many modes may be compiled within each other. -/
def Grammar.maxChain (g : Grammar) : Nat := (g.count + 1) * maxNestedPlacements

theorem Within.length_chain_le (hg : g.AsWritten) (h : Within g scoring n g.firstCall l d) :
    d.chain.length ≤ g.maxChain := by
  let places := none :: g.written.map fun w ↦ some w.1
  have hsub : d.chain ⊆ places := by
    intro place hplace
    have hpos := Nat.lt_of_lt_of_le (List.count_pos_iff.2 hplace) (h.count_chain_le hg place)
    cases place with
    | none => exact List.mem_cons_self
    | some q =>
      cases ht : g.templateAt? q with
      | none =>
        simp only [Grammar.placements, ht] at hpos
        cases hpos
      | some t =>
        obtain ⟨m, hm⟩ := Grammar.exists_modeAt? ht
        exact List.mem_cons_of_mem _ (List.mem_map.2 ⟨_, Grammar.mem_written hm, rfl⟩)
  have hlength : places.length = g.count + 1 := by
    rw [List.length_cons, List.length_map, g.length_written]
  have hle := length_le_mul_of_count_le hsub fun place ↦
    Nat.le_trans (h.count_chain_le hg place) (g.placements_le place)
  rwa [hlength] at hle

/-- What is left of a call: the modes that may still be compiled within it, and those that may
start one after another next to it. -/
def Call.rank (g : Grammar) (c : Call) : Nat :=
  (g.maxChain - c.around.length) * (g.count + 1) + c.template.mode.startsLength

theorem Within.rank_lt (hg : g.AsWritten) (h : Within g scoring n g.firstCall (fuel + 1) c)
    (hlead : Leads g scoring fuel c d) : d.rank g < c.rank g := by
  have hstep := h.step hlead
  obtain ⟨o, -, haround⟩ | ⟨haround, o, mode, ho, hmode, htemplate⟩ := hlead.around
  -- One mode more around counts for more than all that can start one after another.
  · have hstarts := Grammar.startsLength_le (hstep.of hg)
    have hchain := hstep.length_chain_le hg
    have hlength : d.around.length = c.around.length + 1 := by
      rw [haround, Call.within, List.length_cons]
    rw [Call.chain, List.length_cons, List.length_map, hlength] at hchain
    obtain ⟨left, hleft⟩ : ∃ left, g.maxChain - c.around.length = left + 1 :=
      ⟨g.maxChain - c.around.length - 1, by omega⟩
    rw [Call.rank, Call.rank, hlength, hleft,
      show g.maxChain - (c.around.length + 1) = left by omega, Nat.succ_mul]
    omega
  · have hmode := hmode
    rw [(Call.opening_contents hg (h.of hg) ho).2] at hmode
    have hstarts : c.template.mode.startsLength = mode.startsLength + 1 := by
      rw [Mode.startsLength_eq, hmode, Option.elim]
    rw [Call.rank, Call.rank, haround, htemplate, Template.next_mode, hstarts]
    omega

theorem Within.rank_add_le (hg : g.AsWritten) (h : Within g scoring n g.firstCall l d) :
    d.rank g + n ≤ l + g.firstCall.rank g := by
  induction h with
  | refl => omega
  | step h hlead ih =>
    have hlt := h.rank_lt hg hlead
    omega

theorem Grammar.rank_firstCall_lt (g : Grammar) : g.firstCall.rank g < g.levels := by
  have hcount : 0 < g.count := by
    rw [← g.length_written]
    exact List.length_pos_of_mem (mem_written (q := ⟨none, []⟩) rfl)
  have hrank : g.firstCall.rank g = (g.count + 1) * maxNestedPlacements * (g.count + 1) := by
    rw [Call.rank, Mode.startsLength_eq]
    rfl
  have hlevels : g.levels = ((maxNestedPlacements + 1) * g.count + 1) * 4 * (g.count + 1) := by
    rw [levels, Nat.mul_assoc _ 4, Nat.mul_add_one 4]
  rw [hrank, hlevels]
  refine Nat.mul_lt_mul_of_pos_right ?_ (Nat.succ_pos _)
  simp only [maxNestedPlacements]
  omega

/-- Every call that the compilation of a grammar makes has a level left. -/
theorem Within.level_pos (hg : g.AsWritten) (hn : g.levels ≤ n)
    (h : Within g scoring n g.firstCall l d) : 0 < l := by
  have hrank := h.rank_add_le hg
  have hfirst := g.rank_firstCall_lt
  omega

end SyntaxHighlight
