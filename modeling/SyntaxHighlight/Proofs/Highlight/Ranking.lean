import Mathlib
import SyntaxHighlight.Highlight.Ranking

/-!
The order of ranked results. A result is ranked among those before it, and passes the ones that it
overtakes until it meets one that it does not; results that come later change nothing between them.
-/
namespace SyntaxHighlight.Ranking

section

variable {α : Type} {x y : α} {l part : List α}

theorem pair_sublist_total (hx : x ∈ l) (hy : y ∈ l) (hne : x ≠ y) :
    [x, y].Sublist l ∨ [y, x].Sublist l := by
  obtain ⟨before, after, rfl⟩ := List.append_of_mem hx
  obtain hy | hy := List.mem_append.1 hy
  · exact .inr ((List.singleton_sublist.2 hy).append
      (List.singleton_sublist.2 List.mem_cons_self))
  · have hafter := List.mem_of_ne_of_mem (Ne.symm hne) hy
    have htail := (List.singleton_sublist.2 hafter).cons_cons x
    exact .inl (htail.trans (List.sublist_append_right _ _))

theorem pair_sublist_cons {z : α} (hz : x ≠ z) :
    [x, y].Sublist (z :: l) ↔ [x, y].Sublist l := by
  refine ⟨fun h ↦ ?_, List.Sublist.cons z⟩
  cases h with
  | cons _ h => exact h
  | cons_cons _ h => exact absurd rfl hz

theorem not_pair_sublist (hy : y ∉ l) : ¬ [x, y].Sublist l := fun h ↦ hy (h.mem (by simp))

theorem pair_sublist_asymm (hl : l.Nodup) (h : [x, y].Sublist l) : ¬ [y, x].Sublist l := by
  induction l with
  | nil => cases h
  | cons z l ih =>
    obtain ⟨hz, hl⟩ := List.nodup_cons.1 hl
    cases h with
    | cons _ h =>
      have hy : y ≠ z := fun heq ↦ hz (heq ▸ h.mem (by simp))
      rw [pair_sublist_cons hy]
      exact ih hl h
    | cons_cons _ h =>
      have hy : y ≠ x := fun heq ↦ hz (heq ▸ h.mem (by simp))
      rw [pair_sublist_cons hy]
      exact not_pair_sublist hz

theorem pair_sublist_iff (hl : l.Nodup) (hpart : part.Sublist l) (hx : x ∈ part) (hy : y ∈ part) :
    [x, y].Sublist l ↔ [x, y].Sublist part := by
  refine ⟨fun h ↦ ?_, fun h ↦ h.trans hpart⟩
  have hne : x ≠ y := by
    rintro rfl
    exact pair_sublist_asymm hl h h
  obtain hxy | hyx := pair_sublist_total hx hy hne
  · exact hxy
  · exact absurd (hyx.trans hpart) (pair_sublist_asymm hl h)

end

variable {supersetOf : String → Option String}

/-- Whether the language of a result is declared to extend the language of another one. -/
def isExtension (supersetOf : String → Option String) (s base : Standing) : Bool :=
  s.language.any fun language ↦ base.language.any fun other ↦ extends? supersetOf language other

theorem overtakes_iff {later earlier : Standing} :
    overtakes supersetOf later earlier = true ↔ earlier.relevance < later.relevance ∨
      earlier.relevance = later.relevance ∧ isExtension supersetOf earlier later = true := by
  unfold overtakes isExtension
  cases earlier.language <;> cases later.language <;> simp

variable {α β : Type} {standing : α → Standing} {x y : α} {ranked results before after : List α}

/-! One result is ranked among others. They stand last first. -/

theorem advance_perm (x : α) (ranked : List α) :
    (advance supersetOf standing x ranked).Perm (x :: ranked) := by
  induction ranked with
  | nil => exact .refl _
  | cons y ys ih =>
    rw [advance]
    split
    · exact (ih.cons y).trans (.swap x y ys)
    · exact .refl _

theorem sublist_advance (x : α) (ranked : List α) :
    ranked.Sublist (advance supersetOf standing x ranked) := by
  induction ranked with
  | nil => exact List.nil_sublist _
  | cons y ys ih =>
    rw [advance]
    split
    · exact ih.cons_cons y
    · exact List.sublist_cons_self x (y :: ys)

theorem advance_sorted
    (h : ranked.Pairwise fun y z ↦ (standing y).relevance ≤ (standing z).relevance) :
    (advance supersetOf standing x ranked).Pairwise fun y z ↦
      (standing y).relevance ≤ (standing z).relevance := by
  induction ranked with
  | nil => exact List.pairwise_singleton ..
  | cons y ys ih =>
    obtain ⟨hy, hys⟩ := List.pairwise_cons.1 h
    rw [advance]
    split
    · rename_i hover
      refine List.pairwise_cons.2 ⟨fun z hz ↦ ?_, ih hys⟩
      obtain rfl | hz := List.mem_cons.1 ((advance_perm x ys).mem_iff.1 hz)
      · obtain hlt | ⟨heq, -⟩ := overtakes_iff.1 hover <;> omega
      · exact hy z hz
    · rename_i hover
      have hxy : (standing x).relevance ≤ (standing y).relevance := by
        by_contra hlt
        exact hover (overtakes_iff.2 (.inl (by omega)))
      refine List.pairwise_cons.2 ⟨fun z hz ↦ ?_, h⟩
      obtain rfl | hz := List.mem_cons.1 hz
      · exact hxy
      · exact hxy.trans (hy z hz)

/-- A result passes another one just if it overtakes that one and all that stand behind it. -/
theorem passes_iff (hnodup : (x :: ranked).Nodup) (hy : y ∈ ranked) :
    [y, x].Sublist (advance supersetOf standing x ranked) ↔
      overtakes supersetOf (standing x) (standing y) = true ∧
        ∀ z ∈ ranked, [z, y].Sublist ranked →
          overtakes supersetOf (standing x) (standing z) = true := by
  induction ranked with
  | nil => cases hy
  | cons z zs ih =>
    obtain ⟨hx, hranked⟩ := List.nodup_cons.1 hnodup
    obtain ⟨hz, hzs⟩ := List.nodup_cons.1 hranked
    have hxzs : (x :: zs).Nodup := List.nodup_cons.2 ⟨fun h ↦ hx (List.mem_cons_of_mem z h), hzs⟩
    have hmem : x ∈ advance supersetOf standing x zs :=
      (advance_perm x zs).mem_iff.2 List.mem_cons_self
    rw [advance]
    -- `z` is the last one ranked: `x` has to pass it first, whether it is `y` or stands behind `y`.
    by_cases hover : overtakes supersetOf (standing x) (standing z) = true
    · rw [if_pos hover]
      obtain rfl | hy := List.mem_cons.1 hy
      · refine iff_of_true ((List.singleton_sublist.2 hmem).cons_cons y) ⟨hover, fun w _ hw ↦ ?_⟩
        cases hw with
        | cons _ hw => exact absurd hw (not_pair_sublist hz)
        | cons_cons _ hw => exact hover
      · have hyz : y ≠ z := fun h ↦ hz (h ▸ hy)
        rw [pair_sublist_cons hyz, ih hxzs hy]
        refine and_congr_right fun _ ↦ ⟨fun hall w _ hw ↦ ?_, fun hall w hwzs hw ↦
          hall w (List.mem_cons_of_mem z hwzs) (hw.cons z)⟩
        cases hw with
        | cons _ hw => exact hall w (hw.mem (by simp)) hw
        | cons_cons _ hw => exact hover
    · rw [if_neg hover]
      refine iff_of_false ?_ fun h ↦ hover ?_
      · have hyx : y ≠ x := fun h ↦ hx (h ▸ hy)
        rw [pair_sublist_cons hyx]
        exact not_pair_sublist hx
      · obtain rfl | hy := List.mem_cons.1 hy
        · exact h.1
        · exact h.2 z List.mem_cons_self ((List.singleton_sublist.2 hy).cons_cons z)

/-! All results, ranked one after another. -/

theorem rank_concat (before : List α) (x : α) :
    rank supersetOf standing (before ++ [x]) =
      (advance supersetOf standing x (rank supersetOf standing before).reverse).reverse := by
  simp [rank, List.foldl_append]

theorem rank_perm (results : List α) : (rank supersetOf standing results).Perm results := by
  induction results using List.reverseRecOn with
  | nil => exact .refl _
  | append_singleton before x ih =>
    rw [rank_concat]
    have hbefore := ((List.reverse_perm _).trans ih).cons x
    exact ((List.reverse_perm _).trans (advance_perm ..)).trans
      (hbefore.trans (List.perm_append_singleton x before).symm)

/-- Results that come later do not change the order of those before them. -/
theorem rank_sublist (before after : List α) :
    (rank supersetOf standing before).Sublist (rank supersetOf standing (before ++ after)) := by
  induction after using List.reverseRecOn with
  | nil => rw [List.append_nil]
  | append_singleton after x ih =>
    rw [← List.append_assoc, rank_concat]
    refine ih.trans ?_
    rw [← List.reverse_sublist, List.reverse_reverse]
    exact sublist_advance x _

theorem rank_sorted (results : List α) :
    (rank supersetOf standing results).Pairwise fun x y ↦
      (standing y).relevance ≤ (standing x).relevance := by
  induction results using List.reverseRecOn with
  | nil => exact .nil
  | append_singleton before x ih =>
    rw [rank_concat, List.pairwise_reverse]
    exact advance_sorted (List.pairwise_reverse.2 ih)

theorem relevance_le_first {first : α} {others : List α}
    (h : rank supersetOf standing results = first :: others) (hx : x ∈ results) :
    (standing x).relevance ≤ (standing first).relevance := by
  have hsorted : (first :: others).Pairwise fun x y ↦
      (standing y).relevance ≤ (standing x).relevance := h ▸ rank_sorted results
  have hperm : (first :: others).Perm results := h ▸ rank_perm results
  obtain rfl | hx := List.mem_cons.1 (hperm.mem_iff.2 hx)
  · exact le_rfl
  · exact (List.pairwise_cons.1 hsorted).1 x hx

/-- A result comes before one that was there earlier just if it overtakes that one and all earlier
ones that are ranked behind it. -/
theorem comes_first_iff (hnodup : (before ++ x :: after).Nodup) (hy : y ∈ before) :
    [x, y].Sublist (rank supersetOf standing (before ++ x :: after)) ↔
      overtakes supersetOf (standing x) (standing y) = true ∧
        ∀ z ∈ before, [y, z].Sublist (rank supersetOf standing (before ++ x :: after)) →
          overtakes supersetOf (standing x) (standing z) = true := by
  obtain ⟨hbefore, -, hdisjoint⟩ := List.nodup_append.1 hnodup
  have hx : x ∉ before := fun h ↦ hdisjoint x h x List.mem_cons_self rfl
  have hall : (rank supersetOf standing (before ++ x :: after)).Nodup :=
    (rank_perm _).nodup_iff.2 hnodup
  have hfirst : (rank supersetOf standing before).Sublist
      (rank supersetOf standing (before ++ x :: after)) := rank_sublist before (x :: after)
  have hupto : (rank supersetOf standing (before ++ [x])).Sublist
      (rank supersetOf standing (before ++ x :: after)) := by
    have happend : before ++ x :: after = before ++ [x] ++ after := by simp
    rw [happend]
    exact rank_sublist (before ++ [x]) after
  have hmem (z : α) : z ∈ rank supersetOf standing before ↔ z ∈ before := (rank_perm _).mem_iff
  have hranked : (x :: (rank supersetOf standing before).reverse).Nodup :=
    List.nodup_cons.2 ⟨by simpa [hmem] using hx,
      List.nodup_reverse.2 ((rank_perm _).nodup_iff.2 hbefore)⟩
  -- What comes after `x` does not count, and `x` is the last one to be ranked without it.
  have hlast : [x, y].Sublist (rank supersetOf standing (before ++ x :: after)) ↔
      [y, x].Sublist (advance supersetOf standing x (rank supersetOf standing before).reverse) := by
    rw [pair_sublist_iff hall hupto ((rank_perm _).mem_iff.2 (by simp))
      ((rank_perm _).mem_iff.2 (by simp [hy])), rank_concat, ← List.reverse_sublist,
      List.reverse_reverse]
    rfl
  rw [hlast, passes_iff hranked (by simpa [hmem] using hy)]
  refine and_congr_right fun _ ↦ forall_congr' fun z ↦ ?_
  rw [List.mem_reverse, hmem]
  refine forall_congr' fun hz ↦ imp_congr_left ?_
  rw [pair_sublist_iff hall hfirst ((hmem y).2 hy) ((hmem z).2 hz), ← List.reverse_sublist,
    List.reverse_reverse]
  rfl

theorem advance_concat {first : α} (h : overtakes supersetOf (standing x) (standing first) = false)
    (ranked : List α) :
    advance supersetOf standing x (ranked ++ [first]) =
      advance supersetOf standing x ranked ++ [first] := by
  induction ranked with
  | nil => simp only [List.nil_append, advance, h, Bool.false_eq_true, if_false, List.cons_append]
  | cons y ys ih =>
    rw [List.cons_append, advance, advance, ih]
    split <;> rfl

theorem rank_cons {first : α}
    (h : ∀ x ∈ results, overtakes supersetOf (standing x) (standing first) = false) :
    rank supersetOf standing (first :: results) = first :: rank supersetOf standing results := by
  induction results using List.reverseRecOn with
  | nil => rfl
  | append_singleton before x ih =>
    have hbefore := ih fun y hy ↦ h y (List.mem_append_left [x] hy)
    rw [← List.cons_append, rank_concat, hbefore, List.reverse_cons, advance_concat (h x (by simp)),
      List.reverse_append, rank_concat]
    rfl

theorem rank_map (f : β → α) (results : List β) :
    rank supersetOf standing (results.map f) =
      (rank supersetOf (fun x ↦ standing (f x)) results).map f := by
  have hadvance (x : β) (ranked : List β) :
      advance supersetOf standing (f x) (ranked.map f) =
        (advance supersetOf (fun x ↦ standing (f x)) x ranked).map f := by
    induction ranked with
    | nil => rfl
    | cons y ys ih =>
      rw [List.map_cons, advance, advance, ih]
      split <;> rfl
  induction results using List.reverseRecOn with
  | nil => rfl
  | append_singleton before x ih =>
    rw [List.map_append, List.map_singleton, rank_concat, rank_concat, ih, ← List.map_reverse,
      hadvance, List.map_reverse]

def order (supersetOf : String → Option String) (standing : α → Standing) (results : List α) :
    List (Fin results.length) :=
  rank supersetOf (fun i ↦ standing results[i]) (List.finRange results.length)

theorem rank_eq_order (results : List α) :
    rank supersetOf standing results =
      (order supersetOf standing results).map fun i ↦ results[i] := by
  have hresults : (List.finRange results.length).map (fun i ↦ results[i]) = results :=
    List.map_getElem_finRange ..
  conv_lhs => rw [← hresults]
  exact rank_map (fun i : Fin results.length ↦ results[i]) _

variable {i j : Fin results.length}

theorem mem_order (i : Fin results.length) : i ∈ order supersetOf standing results :=
  (rank_perm _).mem_iff.2 (List.mem_finRange i)

theorem order_relevance (h : [i, j].Sublist (order supersetOf standing results)) :
    (standing results[j]).relevance ≤ (standing results[i]).relevance :=
  (List.pairwise_cons.1 ((rank_sorted _).sublist h)).1 j (by simp)

theorem order_later_iff (h : i < j) :
    [j, i].Sublist (order supersetOf standing results) ↔
      overtakes supersetOf (standing results[j]) (standing results[i]) = true ∧
        ∀ k < j, [i, k].Sublist (order supersetOf standing results) →
          overtakes supersetOf (standing results[j]) (standing results[k]) = true := by
  obtain ⟨before, after, hsplit⟩ := List.append_of_mem (List.mem_finRange j)
  have hnodup := List.nodup_finRange results.length
  have hsorted := List.pairwise_lt_finRange results.length
  rw [hsplit] at hnodup hsorted
  have hbefore (k : Fin results.length) : k ∈ before ↔ k < j := by
    obtain ⟨-, hafter, hlt⟩ := List.pairwise_append.1 hsorted
    refine ⟨fun hk ↦ hlt k hk j List.mem_cons_self, fun hk ↦ ?_⟩
    have hmem := List.mem_finRange k
    rw [hsplit, List.mem_append, List.mem_cons] at hmem
    obtain hk' | rfl | hk' := hmem
    · exact hk'
    · exact absurd hk (lt_irrefl k)
    · exact absurd hk ((List.pairwise_cons.1 hafter).1 k hk').asymm
  have hiff := @comes_first_iff supersetOf _ (fun i : Fin results.length ↦ standing results[i])
    _ _ _ _ hnodup ((hbefore i).2 h)
  simp only [← hsplit, hbefore] at hiff
  exact hiff

theorem order_perm (results : List α) :
    (order supersetOf standing results).Perm (List.finRange results.length) :=
  rank_perm _

theorem not_isExtension {s base : Standing} (h : s.language = none ∨ base.language = none) :
    isExtension supersetOf s base = false := by
  unfold isExtension
  obtain h | h := h
  · rw [h]
    rfl
  · rw [h]
    cases s.language <;> rfl

/-- The ranked results are those given, with the more relevant ones first. Others change places only
if they are equally relevant, and the language of the one that was there first is declared to extend
that of the other. This declaration may run in circles. -/
theorem rank_stable (supersetOf : String → Option String) (standing : α → Standing)
    (results : List α) :
    (rank supersetOf standing results).Perm results ∧
      (rank supersetOf standing results).Pairwise
        (fun x y ↦ (standing y).relevance ≤ (standing x).relevance) ∧
      rank supersetOf standing results =
        (order supersetOf standing results).map (fun k ↦ results[k]) ∧
      (order supersetOf standing results).Perm (List.finRange results.length) ∧
      ∀ i j : Fin results.length, i < j →
        ([j, i].Sublist (order supersetOf standing results) →
          (standing results[i]).relevance < (standing results[j]).relevance ∨
            (standing results[i]).relevance = (standing results[j]).relevance ∧
              isExtension supersetOf (standing results[i]) (standing results[j]) = true) ∧
        ((standing results[i]).relevance = (standing results[j]).relevance →
          (standing results[i]).language = none ∨ (standing results[j]).language = none →
            [i, j].Sublist (order supersetOf standing results)) := by
  refine ⟨rank_perm results, rank_sorted results, rank_eq_order results, order_perm results,
    fun i j hij ↦ ?_⟩
  have hover : [j, i].Sublist (order supersetOf standing results) →
      (standing results[i]).relevance < (standing results[j]).relevance ∨
        (standing results[i]).relevance = (standing results[j]).relevance ∧
          isExtension supersetOf (standing results[i]) (standing results[j]) = true :=
    fun h ↦ overtakes_iff.1 ((order_later_iff hij).1 h).1
  refine ⟨hover, fun htie hnone ↦ ?_⟩
  obtain hkept | hpassed := pair_sublist_total (mem_order i) (mem_order j) hij.ne
  · exact hkept
  · obtain hlt | ⟨-, hext⟩ := hover hpassed
    · omega
    · rw [not_isExtension hnone] at hext
      cases hext

/-- Two languages that are declared to extend each other, and no language. -/
def feud : List Standing := [⟨some "left", 2⟩, ⟨some "right", 2⟩, ⟨none, 2⟩, ⟨some "left", 2⟩]

def feud.baseOf (language : String) : Option String :=
  [("left", "RIGHT"), ("right", "Left")].lookup language

theorem feud_settled :
    rank feud.baseOf id feud = [⟨some "right", 2⟩, ⟨some "left", 2⟩, ⟨none, 2⟩, ⟨some "left", 2⟩] ∧
      isExtension feud.baseOf feud[0] feud[1] = true ∧
      [(⟨2, by decide⟩ : Fin feud.length), ⟨3, by decide⟩].Sublist (order feud.baseOf id feud) := by
  have hrank : rank feud.baseOf id feud =
      [⟨some "right", 2⟩, ⟨some "left", 2⟩, ⟨none, 2⟩, ⟨some "left", 2⟩] := by decide
  have hpassed : [(⟨1, by decide⟩ : Fin feud.length), ⟨0, by decide⟩].Sublist
      (order feud.baseOf id feud) := by decide
  obtain ⟨-, -, -, -, hpairs⟩ := rank_stable feud.baseOf id feud
  obtain hlt | ⟨-, hext⟩ := (hpairs ⟨0, by decide⟩ ⟨1, by decide⟩ (by decide)).1 hpassed
  · exact absurd hlt (by decide)
  · exact ⟨hrank, hext, (hpairs ⟨2, by decide⟩ ⟨3, by decide⟩ (by decide)).2 rfl (.inl rfl)⟩

/-- Of two equally relevant results, the one whose language the other's is declared to extend comes
first if it was there first. Otherwise it does just if all equally relevant ones that were there
before it, and are ranked behind the other one, are in languages that are declared to extend its
own: a single one that has nothing to do with it keeps it back. -/
theorem base_first_iff (htie : (standing results[i]).relevance = (standing results[j]).relevance)
    (hext : isExtension supersetOf (standing results[i]) (standing results[j]) = true)
    (hnot : isExtension supersetOf (standing results[j]) (standing results[i]) = false) :
    rank supersetOf standing results =
        (order supersetOf standing results).map (fun k ↦ results[k]) ∧
      ([j, i].Sublist (order supersetOf standing results) ↔
        j < i ∨ ∀ k < j, [i, k].Sublist (order supersetOf standing results) →
          (standing results[k]).relevance = (standing results[j]).relevance →
            isExtension supersetOf (standing results[k]) (standing results[j]) = true) := by
  refine ⟨rank_eq_order results, ?_⟩
  have hne : i ≠ j := by
    rintro rfl
    rw [hext] at hnot
    cases hnot
  -- Only the one that comes later in the input has anything to overtake.
  obtain hij | hji := lt_or_gt_of_ne hne
  · have hover : overtakes supersetOf (standing results[j]) (standing results[i]) = true :=
      overtakes_iff.2 (.inr ⟨htie, hext⟩)
    rw [order_later_iff hij, and_iff_right hover, or_iff_right hij.asymm]
    refine forall₂_congr fun k _ ↦ forall_congr' fun hk ↦ ?_
    have hle := order_relevance hk
    rw [htie] at hle
    rw [overtakes_iff]
    constructor
    · rintro (hlt | ⟨-, hext⟩) heq
      · omega
      · exact hext
    · intro h
      obtain hlt | heq := Nat.lt_or_eq_of_le hle
      · exact .inl hlt
      · exact .inr ⟨heq, h heq⟩
  · have hover : ¬ overtakes supersetOf (standing results[i]) (standing results[j]) = true := by
      rw [overtakes_iff]
      rintro (hlt | ⟨-, hback⟩)
      · omega
      · rw [hback] at hnot
        cases hnot
    refine iff_of_true ?_ (.inl hji)
    obtain hfirst | hlast := pair_sublist_total (mem_order j) (mem_order i) hne.symm
    · exact hfirst
    · exact absurd ((order_later_iff hji).1 hlast).1 hover

/-- Equally relevant results in a language, in one that extends it further, and in its base. -/
def kin : List Standing := [⟨some "derived", 3⟩, ⟨some "further", 3⟩, ⟨some "base", 3⟩]

def kin.baseOf (language : String) : Option String :=
  [("derived", "base"), ("further", "derived")].lookup language

theorem kin_base_last :
    rank kin.baseOf id kin = kin ∧ isExtension kin.baseOf kin[0] kin[2] = true ∧
      isExtension kin.baseOf kin[2] kin[0] = false ∧
      ¬ [(⟨2, by decide⟩ : Fin kin.length), ⟨0, by decide⟩].Sublist (order kin.baseOf id kin) := by
  have hrank : rank kin.baseOf id kin = kin := by decide
  have hext : isExtension kin.baseOf kin[0] kin[2] = true := by decide
  have hnot : isExtension kin.baseOf kin[2] kin[0] = false := by decide
  refine ⟨hrank, hext, hnot, fun hfirst ↦ ?_⟩
  have hiff := (@base_first_iff kin.baseOf _ id kin ⟨0, by decide⟩ ⟨2, by decide⟩ rfl hext hnot).2
  obtain hearlier | hkept := hiff.1 hfirst
  · exact absurd hearlier (by decide)
  · have hbetween := hkept ⟨1, by decide⟩ (by decide) (by decide) rfl
    exact absurd hbetween (by decide)

end SyntaxHighlight.Ranking
