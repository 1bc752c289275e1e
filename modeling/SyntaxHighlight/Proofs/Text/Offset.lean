import SyntaxHighlight.Text.Basic

/-! Byte offsets of positions. They grow with the position, up to the length of the text. -/
namespace SyntaxHighlight

theorem byteLength_append (cs ds : List Char) :
    byteLength (cs ++ ds) = byteLength cs + byteLength ds := by
  induction cs with
  | nil => simp [byteLength]
  | cons c cs ih => rw [List.cons_append, byteLength, byteLength, ih, Nat.add_assoc]

theorem byteLength_pos {cs : List Char} (h : cs ≠ []) : 0 < byteLength cs := by
  cases cs with
  | nil => exact absurd rfl h
  | cons c cs => exact Nat.add_pos_left c.utf8Size_pos _

namespace Text

variable (t : Text) {i j : Nat}

theorem byteOffset_of_size_le (hi : t.size ≤ i) : t.byteOffset i = t.bytes + (i - t.size) := by
  have hall : t.chars.extract 0 i = t.chars := Array.extract_eq_self_of_le hi
  rw [byteOffset, hall, bytes]

theorem byteOffset_size : t.byteOffset t.size = t.bytes := by
  rw [byteOffset_of_size_le t (Nat.le_refl _), Nat.sub_self, Nat.add_zero]

theorem byteOffset_eq (hi : i ≤ t.size) : t.byteOffset i = byteLength (t.chars.toList.take i) := by
  rw [byteOffset, Nat.sub_eq_zero_of_le hi, Nat.add_zero, Array.toList_extract,
    List.extract_eq_take_drop, List.drop_zero, Nat.sub_zero]

theorem byteOffset_succ_le (hi : i < t.size) : t.byteOffset (i + 1) ≤ t.byteOffset i + 4 := by
  have hlen : i < t.chars.toList.length := hi
  have hsize := t.chars.toList[i].utf8Size_le_four
  rw [byteOffset_eq t hi, byteOffset_eq t (Nat.le_of_lt hi), List.take_succ_eq_append_getElem hlen,
    byteLength_append, byteLength, byteLength]
  omega

theorem byteOffset_lt (hij : i < j) (hj : j ≤ t.size) : t.byteOffset i < t.byteOffset j := by
  have hlen : j ≤ t.chars.toList.length := hj
  have hsplit := List.take_append_drop i (t.chars.toList.take j)
  rw [List.take_take, Nat.min_eq_left (Nat.le_of_lt hij)] at hsplit
  rw [byteOffset_eq t hj, byteOffset_eq t (by omega), ← hsplit, byteLength_append]
  refine Nat.lt_add_of_pos_right (byteLength_pos fun hnil ↦ ?_)
  rw [List.drop_eq_nil_iff, List.length_take] at hnil
  omega

theorem byteOffset_mono (hij : i ≤ j) (hj : j ≤ t.size) : t.byteOffset i ≤ t.byteOffset j := by
  obtain hlt | rfl := Nat.lt_or_eq_of_le hij
  · exact Nat.le_of_lt (t.byteOffset_lt hlt hj)
  · exact Nat.le_refl _

theorem byteOffset_le (hi : i ≤ t.size) : t.byteOffset i ≤ t.bytes := by
  rw [← byteOffset_size]
  exact t.byteOffset_mono hi (Nat.le_refl _)

end Text

end SyntaxHighlight
