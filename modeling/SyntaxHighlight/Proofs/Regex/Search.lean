import SyntaxHighlight.Regex.Match

/-! Searching takes the first place at which an expression matches. -/
namespace SyntaxHighlight.Regex.Expr

variable {e : Expr} {text : Text} {searchStart n pos start : Nat} {spans : List (Option Span)}

theorem searchFrom_of_none (h : e.matchAt? text searchStart pos = none) :
    e.searchFrom text searchStart (n + 1) pos = e.searchFrom text searchStart n (pos + 1) := by
  rw [searchFrom, h]

theorem searchFrom_eq_some (h : e.searchFrom text searchStart n pos = some spans) :
    ∃ p, pos ≤ p ∧ p < pos + n ∧ e.matchAt? text searchStart p = some spans ∧
      ∀ q, pos ≤ q → q < p → e.matchAt? text searchStart q = none := by
  induction n generalizing pos with
  | zero => cases h
  | succ n ih =>
    rw [searchFrom] at h
    split at h
    · rename_i hmatch
      cases h
      exact ⟨pos, Nat.le_refl _, by omega, hmatch, fun q hq hq' ↦ by omega⟩
    · rename_i hnone
      obtain ⟨p, hp, hlt, hmatch, hfirst⟩ := ih h
      refine ⟨p, by omega, by omega, hmatch, fun q hq hq' ↦ ?_⟩
      by_cases he : q = pos
      · rw [he, hnone]
      · exact hfirst q (by omega) hq'

/-- What is found is a match at the first place at or after the start where there is one. -/
theorem captures?_eq_some (h : e.captures? text start = some spans) :
    ∃ p, start ≤ p ∧ p ≤ text.size ∧ e.matchAt? text start p = some spans ∧
      ∀ q, start ≤ q → q < p → e.matchAt? text start q = none := by
  obtain ⟨p, hp, hlt, hmatch, hfirst⟩ := searchFrom_eq_some h
  exact ⟨p, hp, by omega, hmatch, hfirst⟩

theorem captures?_of_size_lt (h : text.size < start) : e.captures? text start = none := by
  rw [captures?, Nat.sub_eq_zero_of_le h]
  rfl

theorem getElem?_spans_join (e : Expr) (start : Nat) (s : State) {n : Nat} (hn : 0 < n) :
    (e.spans start s)[n]?.join = if n ≤ e.groupCount then s.group n else none := by
  obtain ⟨n, rfl⟩ := Nat.exists_eq_succ_of_ne_zero (Nat.ne_of_gt hn)
  rw [Expr.spans, List.getElem?_cons_succ, List.getElem?_map]
  split
  · rw [List.getElem?_range (by omega)]
    rfl
  · rw [List.getElem?_eq_none (by simp; omega)]
    rfl

end SyntaxHighlight.Regex.Expr
