import SyntaxHighlight.Text.Basic

/-! Slices of a text that lie next to each other. -/
namespace SyntaxHighlight.Text

variable (t : Text) {i j k : Nat}

theorem slice_append (hij : i ≤ j) (hjk : j ≤ k) : t.slice i j ++ t.slice j k = t.slice i k := by
  simp only [slice]
  rw [← String.ofList_append, ← Array.toList_append, Array.extract_append_extract,
    Nat.min_eq_left hij, Nat.max_eq_right hjk]

@[simp] theorem slice_self (i : Nat) : t.slice i i = "" := by
  simp [slice]

theorem slice_of_size_le (hj : t.size ≤ j) : t.slice i j = t.rest i := by
  have hsize : t.chars.size ≤ j := hj
  rw [rest, slice, slice, Array.extract_eq_extract_right.2]
  simp only [size]
  omega

theorem rest_of_size_le (hi : t.size ≤ i) : t.rest i = "" := by
  have hempty : t.chars.extract i t.size = #[] := Array.extract_empty_of_stop_le_start hi
  rw [rest, slice, hempty]

theorem slice_of_get? {c : Char} (h : t.get? i = some c) :
    t.slice i (i + 1) = String.singleton c := by
  obtain ⟨hi, rfl⟩ := Array.getElem?_eq_some_iff.1 h
  have hsingle : t.chars.extract i (i + 1) = #[t.chars[i]] := by
    rw [Array.extract_succ_right (Nat.lt_succ_self i) hi,
      Array.extract_empty_of_stop_le_start (Nat.le_refl i)]
    rfl
  rw [slice, hsingle]
  rfl

theorem size_le_of_get? (h : t.get? i = none) : t.size ≤ i := Array.getElem?_eq_none_iff.1 h

theorem length_slice (hj : j ≤ t.size) : (t.slice i j).length = j - i := by
  have hsize : j ≤ t.chars.size := hj
  simp only [slice, String.length_ofList, Array.length_toList, Array.size_extract]
  omega

@[simp] theorem rest_ofString (s : String) : (ofString s).rest 0 = s := by
  simp [rest, slice, ofString, size]

/-- Spans that lie one after another between two positions. -/
def InOrder : List Span → Nat → Nat → Prop
  | [], start, stop => start ≤ stop
  | (first, last) :: spans, start, stop => start ≤ first ∧ first ≤ last ∧ InOrder spans last stop

theorem InOrder.le {spans : List Span} (h : InOrder spans i j) : i ≤ j := by
  induction spans generalizing i with
  | nil => exact h
  | cons span spans ih => exact Nat.le_trans (Nat.le_trans h.1 h.2.1) (ih h.2.2)

end SyntaxHighlight.Text
