import Mathlib.Data.List.Forall2
import SyntaxHighlight.Proofs.Rule.Alternation
import SyntaxHighlight.Proofs.Rule.Resumable

/-! What a search finds when the first rules are left out: the first of the others that matches
right where it starts, or else what all rules find from one character later. -/
namespace SyntaxHighlight.Rule

open Regex

variable {flags : Flags} {rules : List Rule} {sources : List String} {es : List Expr} {text : Text}
  {searchStart start position k : Nat} {hit : Hit}

/-- Rules whose sources stand side by side whichever of the first are left out, but for those before
number `least`. -/
def SideBySideFrom (flags : Flags) (least : Nat) (rules : List Rule) (es : List Expr) : Prop :=
  ∀ k ≥ least, SideBySide flags 0 0 ((rules.drop k).map Rule.source) (es.drop k)

theorem SideBySideFrom.mono {least : Nat} (h : SideBySideFrom flags least rules es)
    (hle : least ≤ k) : SideBySideFrom flags k rules es :=
  fun j hj ↦ h j (Nat.le_trans hle hj)

/-- None of the expressions from number `first` to before number `last` matches at a place. -/
def NoneMatches (text : Text) (start : Nat) (es : List Expr) (first last : Nat) : Prop :=
  ∀ i e, first ≤ i → i < last → es[i]? = some e → e.matchesAt text start = false

theorem matchesAt_eq_false {e : Expr}
    (h : start ≤ text.size → e.matchAt? text start start = none) :
    e.matchesAt text start = false := by
  rw [Expr.matchesAt, Bool.and_eq_false_imp]
  intro hle
  have hnone := h (of_decide_eq_true hle)
  rw [Expr.matchAt?, Option.map_eq_none_iff] at hnone
  rw [hnone]
  rfl

theorem matchesAt_of_matchAt? {e : Expr} {spans : List (Option Span)} (hle : start ≤ text.size)
    (h : e.matchAt? text start start = some spans) : e.matchesAt text start = true := by
  obtain ⟨t, ht, -⟩ := Option.map_eq_some_iff.1 h
  rw [Expr.matchesAt, ht, decide_eq_true hle]
  rfl

theorem firstAt_eq_some (h : firstAt text searchStart start position es = some hit) :
    ∃ i e spans, hit.position = position + i ∧ es[i]? = some e ∧
      e.matchAt? text searchStart start = some spans ∧
      ∀ j e', j < i → es[j]? = some e' → e'.matchAt? text searchStart start = none := by
  induction es generalizing position with
  | nil => cases h
  | cons e es ih =>
    rw [firstAt] at h
    split at h
    · rename_i spans hspans
      obtain ⟨span, -, rfl⟩ := Option.map_eq_some_iff.1 h
      exact ⟨0, e, spans, rfl, rfl, hspans, fun _ _ hj ↦ absurd hj (Nat.not_lt_zero _)⟩
    · rename_i hnone
      obtain ⟨i, e', spans, hposition, he, hspans, hahead⟩ := ih h
      refine ⟨i + 1, e', spans, by omega, he, hspans, fun j e'' hj he' ↦ ?_⟩
      cases j with
      | zero =>
        cases he'
        exact hnone
      | succ j => exact hahead j e'' (by omega) he'

theorem winnerOf_eq_some {find : Expr → Option (List (Option Span))}
    (h : winnerOf find position es = some hit) :
    ∃ i e spans later, hit.position = position + i ∧ es[i]? = some e ∧ find e = some spans ∧
      ownHit (position + i) later spans = some hit := by
  induction es generalizing position with
  | nil => cases h
  | cons e es ih =>
    have hlater (h : winnerOf find (position + 1) es = some hit) : ∃ i e' spans later,
        hit.position = position + i ∧ (e :: es)[i]? = some e' ∧ find e' = some spans ∧
          ownHit (position + i) later spans = some hit := by
      obtain ⟨i, e', spans, later, hposition, he, hfind, hhit⟩ := ih h
      rw [Nat.add_assoc, Nat.add_comm 1 i] at hposition hhit
      exact ⟨i + 1, e', spans, later, hposition, he, hfind, hhit⟩
    have hown (h : (find e).bind (ownHit position (slots es)) = some hit) : ∃ i e' spans later,
        hit.position = position + i ∧ (e :: es)[i]? = some e' ∧ find e' = some spans ∧
          ownHit (position + i) later spans = some hit := by
      obtain ⟨spans, hfind, hhit⟩ := Option.bind_eq_some_iff.1 h
      obtain ⟨span, -, heq⟩ := Option.map_eq_some_iff.1 hhit
      exact ⟨0, e, spans, _, by rw [← heq]; rfl, rfl, hfind, hhit⟩
    rw [winnerOf] at h
    generalize hfirst : (find e).bind (ownHit position (slots es)) = first,
      hothers : winnerOf find (position + 1) es = other at h
    cases first with
    | none => exact hlater (hothers.trans h)
    | some own =>
      cases other with
      | none => exact hown (hfirst.trans h)
      | some other =>
        rw [earlier] at h
        split at h
        · exact hlater (hothers.trans h)
        · exact hown (hfirst.trans h)

theorem SideBySide.compile_of_getElem? {i : Nat} {e : Expr}
    (h : SideBySide flags 0 0 (rules.map Rule.source) es) (he : es[i]? = some e) :
    ∃ rule, rules[i]? = some rule ∧ Regex.compile rule.source flags = .ok e := by
  obtain ⟨hlength, hcompiles⟩ := List.forall₂_iff_get.1 h.compiles
  obtain ⟨hi, rfl⟩ := List.getElem?_eq_some_iff.1 he
  have hlt : i < rules.length := by
    rw [List.length_map] at hlength
    omega
  refine ⟨rules[i], List.getElem?_eq_getElem hlt, ?_⟩
  have hcompile := hcompiles i (by rwa [hlength]) hi
  simpa using hcompile

theorem SideBySide.reportStarts (h : SideBySide flags 0 0 sources es) (text : Text)
    (searchStart : Nat) : ReportStarts text searchStart es := by
  cases sources with
  | nil =>
    cases h
    exact nofun
  | cons source sources =>
    obtain ⟨a, -, hjoined, -⟩ := h.ofSources (List.cons_ne_nil _ _)
    exact hjoined.reportStarts text searchStart

theorem ReportStarts.race_index_ne (h : ReportStarts text start es)
    (hnone : start ≤ text.size → ∀ e ∈ es, e.matchAt? text start start = none) :
    (race text start es).map Hit.index ≠ some start := by
  intro hindex
  obtain ⟨hit, hrace, hindex⟩ := Option.map_eq_some_iff.1 hindex
  have hle : start + 1 ≤ hit.index := by
    refine le_index_winnerOf (fun e he spans hfound ↦ ?_) hrace
    rw [Expr.captures?] at hfound
    by_cases hsize : start ≤ text.size
    · rw [Nat.succ_sub hsize, Expr.searchFrom_of_none (hnone hsize e he)] at hfound
      exact h.foundFrom he hfound
    · rw [Nat.sub_eq_zero_of_le (by omega)] at hfound
      cases hfound
  omega

namespace Resumable

variable {r : Resumable}

theorem searchTail_eq_race (hr : ofRules rules flags = .ok r)
    (h : SideBySide flags 0 0 ((rules.drop k).map Rule.source) es) :
    r.searchTail k text start = .ok (race text start es) := by
  rw [searchTail_ofRules hr, tailAlternation]
  by_cases hlt : k < rules.length
  · have hne : (rules.drop k).map Rule.source ≠ [] := by
      rw [Ne, List.map_eq_nil_iff, List.drop_eq_nil_iff]
      omega
    obtain ⟨a, ha, hjoined, hcount⟩ := h.ofSources hne
    rw [if_pos (by omega), ha]
    exact congrArg Except.ok (hjoined.search?_eq_race hcount text start)
  · rw [List.drop_eq_nil_iff.2 (by omega)] at h ⊢
    cases h
    split <;> rfl

theorem next_captures {m : Match} {following : Nat} (hr : ofRules rules flags = .ok r)
    (h : SideBySideFrom flags 0 rules es)
    (hm : r.next k text start = .ok (some (m, following))) :
    ∃ (rule : Rule) (e : Expr) (searchStart : Nat) (spans : List (Option Span)),
      rules[m.rule]? = some rule ∧ m.kind = rule.kind ∧
      Regex.compile rule.source flags = .ok e ∧ m.index ≤ text.size ∧
      e.matchAt? text searchStart m.index = some spans ∧
      ∀ n : Nat, m.groups[n]?.join = spans[n]?.join := by
  obtain ⟨k, start', hit, -, hsearch, rfl, -⟩ := next_eq_some hm
  have hside := h k (Nat.zero_le k)
  rw [searchTail_eq_race hr hside] at hsearch
  obtain ⟨i, e, spans, later, -, he, hfind, hhit⟩ := winnerOf_eq_some (Except.ok.inj hsearch)
  obtain ⟨p, -, hle, hmatch, -⟩ := Expr.captures?_eq_some hfind
  obtain ⟨stop, hhead⟩ := hside.reportStarts text start' e (List.mem_of_getElem? he) p spans hmatch
  rw [ownHit, hhead] at hhit
  cases hhit
  obtain ⟨rule, hrule, hcompiles⟩ := hside.compile_of_getElem? he
  rw [List.getElem?_drop] at hrule
  have hrules : r.rules[k + i]? = some rule := (ofRules_eq_ok hr).1 ▸ hrule
  refine ⟨rule, e, start', spans, ?_, ?_, hcompiles, hle, hmatch, fun n ↦ ?_⟩
  · rw [Nat.zero_add]
    exact hrule
  · rw [Nat.zero_add, hrules]
    rfl
  · by_cases hn : n < spans.length
    · rw [List.getElem?_append_left hn]
    · rw [List.getElem?_append_right (by omega), List.getElem?_eq_none (l := spans) (by omega),
        List.getElem?_replicate]
      split <;> rfl

theorem next_of_index (hsearch : r.searchTail k text start = .ok (some hit))
    (hindex : hit.index = start) : r.next k text start = .ok (some
      (⟨k + hit.position, (r.rules[k + hit.position]?.map Rule.kind).getD .illegal, start,
        hit.groups⟩,
      if k + hit.position + 1 = r.beginCount then 0 else k + hit.position + 1)) := by
  subst hindex
  refine bind_eq_ok.2 ⟨_, hsearch, ?_⟩
  dsimp only
  rw [if_neg (by simp)]
  rfl

theorem next_of_index_ne {narrowed : Option Hit} (hk : k ≠ 0)
    (hsearch : r.searchTail k text start = .ok narrowed)
    (hindex : narrowed.map Hit.index ≠ some start) :
    r.next k text start = if start < text.size then r.next 0 text (start + 1) else .ok none := by
  rw [next, hsearch]
  simp only [bind, Except.bind, hk, hindex, ne_eq, not_false_eq_true, and_self, if_true]
  split
  · rw [next]
    cases r.searchTail 0 text (start + 1) <;> rfl
  · rfl

/-- The rules that stay in play count only where the search starts, and the first of them that
matches there wins. -/
theorem next_narrowed (hr : ofRules rules flags = .ok r) (hk : k ≠ 0)
    (h : SideBySideFrom flags k rules es) (text : Text) (start : Nat) :
    (∃ m e, r.next k text start =
        .ok (some (m, if m.rule + 1 = r.beginCount then 0 else m.rule + 1)) ∧
      m.index = start ∧ k ≤ m.rule ∧ es[m.rule]? = some e ∧ e.matchesAt text start = true ∧
      NoneMatches text start es k m.rule) ∨
    NoneMatches text start es k es.length ∧
      r.next k text start = if start < text.size then r.next 0 text (start + 1) else .ok none := by
  have hside := h k (Nat.le_refl k)
  have hsearch : r.searchTail k text start = .ok (race text start (es.drop k)) :=
    searchTail_eq_race hr hside
  have hstarts := hside.reportStarts text start
  by_cases hfirst : start ≤ text.size ∧ (firstAt text start start 0 (es.drop k)).isSome
  · obtain ⟨hle, hsome⟩ := hfirst
    obtain ⟨hit, hhit⟩ := Option.isSome_iff_exists.1 hsome
    have hrace : race text start (es.drop k) = some hit := by
      simp only [race, Expr.captures?, Nat.succ_sub hle]
      exact hstarts.winnerOf_eq_firstAt hhit
    obtain ⟨i, e, spans, hposition, he, hspans, hahead⟩ := firstAt_eq_some hhit
    rw [Nat.zero_add] at hposition
    rw [List.getElem?_drop] at he
    rw [hrace] at hsearch
    refine .inl ⟨_, e, next_of_index hsearch (hstarts.index_firstAt hhit), rfl,
      Nat.le_add_right _ _,
      by rw [hposition]; exact he, matchesAt_of_matchAt? hle hspans, fun j e' hkj hj he' ↦ ?_⟩
    refine matchesAt_eq_false fun _ ↦ hahead (j - k) e' (by dsimp only at hj; omega) ?_
    rw [List.getElem?_drop, Nat.add_sub_cancel' hkj]
    exact he'
  · have hnone (hle : start ≤ text.size) : ∀ e ∈ es.drop k, e.matchAt? text start start = none :=
      hstarts.firstAt_eq_none (Option.not_isSome_iff_eq_none.1 fun hsome ↦ hfirst ⟨hle, hsome⟩)
    refine .inr ⟨fun j e hkj _ he ↦ matchesAt_eq_false fun hle ↦ hnone hle e ?_,
      next_of_index_ne hk hsearch (hstarts.race_index_ne hnone)⟩
    refine List.mem_of_getElem? (i := j - k) ?_
    rw [List.getElem?_drop, Nat.add_sub_cancel' hkj]
    exact he

end Resumable

end SyntaxHighlight.Rule
