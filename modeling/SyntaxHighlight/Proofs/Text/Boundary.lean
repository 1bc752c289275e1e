import SyntaxHighlight.Proofs.Text.Offset
import SyntaxHighlight.Proofs.Text.Slice

/-!
Character boundaries among the bytes of a text. They are the byte offsets of its positions. A search
byte by byte for the one next to an offset finds that of the position next to it, three bytes away
at most.
-/
namespace SyntaxHighlight

namespace Text

section CharsWithin

variable (cs : List Char) (n : Nat)

theorem charsWithin_le : charsWithin cs n ≤ cs.length := by
  induction cs generalizing n with
  | nil => exact Nat.le_refl 0
  | cons c cs ih =>
    rw [charsWithin]
    split
    · exact Nat.succ_le_succ (ih _)
    · exact Nat.zero_le _

theorem byteLength_take_charsWithin : byteLength (cs.take (charsWithin cs n)) ≤ n := by
  induction cs generalizing n with
  | nil => exact Nat.zero_le n
  | cons c cs ih =>
    rw [charsWithin]
    split
    · have hrest := ih (n - c.utf8Size)
      rw [List.take_succ_cons, byteLength]
      omega
    · exact Nat.zero_le n

theorem lt_byteLength_take_charsWithin (h : charsWithin cs n < cs.length) :
    n < byteLength (cs.take (charsWithin cs n + 1)) := by
  induction cs generalizing n with
  | nil => cases h
  | cons c cs ih =>
    rw [charsWithin] at h ⊢
    split
    · rename_i hfits
      rw [if_pos hfits] at h
      have hrest := ih (n - c.utf8Size) (Nat.lt_of_succ_lt_succ h)
      rw [List.take_succ_cons, byteLength]
      omega
    · rw [List.take_succ_cons, byteLength]
      omega

end CharsWithin

variable (t : Text) {i n : Nat}

theorem floorPosition_le (n : Nat) : t.floorPosition n ≤ t.size :=
  charsWithin_le t.chars.toList n

theorem byteOffset_floorPosition_le (n : Nat) : t.byteOffset (t.floorPosition n) ≤ n := by
  rw [byteOffset_eq t (t.floorPosition_le n)]
  exact byteLength_take_charsWithin t.chars.toList n

theorem lt_byteOffset_floorPosition (h : t.floorPosition n < t.size) :
    n < t.byteOffset (t.floorPosition n + 1) := by
  rw [byteOffset_eq t h]
  exact lt_byteLength_take_charsWithin t.chars.toList n h

theorem le_floorPosition (hi : i ≤ t.size) (h : t.byteOffset i ≤ n) : i ≤ t.floorPosition n := by
  refine Nat.le_of_not_lt fun hlt ↦ ?_
  have hnext := t.lt_byteOffset_floorPosition (Nat.lt_of_lt_of_le hlt hi)
  exact Nat.not_le.2 hnext (Nat.le_trans (t.byteOffset_mono hlt hi) h)

theorem le_byteOffset_floorPosition (h : n ≤ t.bytes) :
    n ≤ t.byteOffset (t.floorPosition n) + 3 := by
  obtain hlt | heq := Nat.lt_or_eq_of_le (t.floorPosition_le n)
  · have hnext := t.lt_byteOffset_floorPosition hlt
    have hstep := t.byteOffset_succ_le hlt
    omega
  · rw [heq, byteOffset_size]
    omega

/-- Either the text is cut at the offset, or in a character that lies around it. -/
theorem ceilPosition_cases (h : n ≤ t.bytes) :
    t.ceilPosition n = t.floorPosition n ∧ t.byteOffset (t.floorPosition n) = n ∨
      t.ceilPosition n = t.floorPosition n + 1 ∧ t.byteOffset (t.floorPosition n) < n ∧
        t.floorPosition n < t.size := by
  have hfloor := t.byteOffset_floorPosition_le n
  simp only [ceilPosition]
  split
  · rename_i hinside
    exact .inr ⟨rfl, hinside⟩
  · rename_i hcut
    refine .inl ⟨rfl, Nat.le_antisymm hfloor (Nat.le_of_not_lt fun hlt ↦ ?_)⟩
    obtain hsize | heq := Nat.lt_or_eq_of_le (t.floorPosition_le n)
    · exact hcut ⟨hlt, hsize⟩
    · rw [heq, byteOffset_size] at hlt
      omega

theorem ceilPosition_le (h : n ≤ t.bytes) : t.ceilPosition n ≤ t.size := by
  obtain ⟨heq, -⟩ | ⟨heq, -, hsize⟩ := t.ceilPosition_cases h
  · exact heq ▸ t.floorPosition_le n
  · exact heq ▸ hsize

theorem le_byteOffset_ceilPosition (h : n ≤ t.bytes) : n ≤ t.byteOffset (t.ceilPosition n) := by
  obtain ⟨heq, hcut⟩ | ⟨heq, -, hsize⟩ := t.ceilPosition_cases h
  · exact Nat.le_of_eq (heq ▸ hcut.symm)
  · rw [heq]
    exact Nat.le_of_lt (t.lt_byteOffset_floorPosition hsize)

theorem byteOffset_ceilPosition_le (h : n ≤ t.bytes) :
    t.byteOffset (t.ceilPosition n) ≤ n + 3 := by
  obtain ⟨heq, hcut⟩ | ⟨heq, hlt, hsize⟩ := t.ceilPosition_cases h
  · rw [heq, hcut]
    exact Nat.le_add_right _ _
  · have hstep := t.byteOffset_succ_le hsize
    rw [heq]
    omega

theorem ceilPosition_le_of_le (hn : n ≤ t.bytes) (h : n ≤ t.byteOffset i) :
    t.ceilPosition n ≤ i := by
  refine Nat.le_of_not_lt fun hlate ↦ ?_
  have hfloor := t.floorPosition_le n
  obtain ⟨heq, hcut⟩ | ⟨heq, hlt, -⟩ := t.ceilPosition_cases hn
  · have hbefore := t.byteOffset_lt (heq ▸ hlate) hfloor
    omega
  · have hbefore := t.byteOffset_mono (Nat.le_of_lt_succ (heq ▸ hlate)) hfloor
    omega

end Text

/-- A byte offset at which a text may be cut: between two characters, or at an end. -/
def IsBoundary (code : String) (n : Nat) : Prop := String.Pos.Raw.IsValid code ⟨n⟩

instance (code : String) : DecidablePred (IsBoundary code) :=
  fun n ↦ inferInstanceAs (Decidable (String.Pos.Raw.IsValid code ⟨n⟩))

/-- The boundary that is reached from an offset with steps of one byte towards the start. None if
the start is passed. -/
def boundaryBefore? (code : String) : Nat → Option Nat
  | 0 => if IsBoundary code 0 then some 0 else none
  | n + 1 => if IsBoundary code (n + 1) then some (n + 1) else boundaryBefore? code n

/-- The boundary that is reached from an offset with steps of one byte towards the end. None if the
end is passed. -/
def boundaryAfter? (code : String) (n : Nat) : Option Nat :=
  if IsBoundary code n then some n
  else if n < code.utf8ByteSize then boundaryAfter? code (n + 1)
  else none
termination_by code.utf8ByteSize - n

/-- The text between two byte offsets. None unless they are boundaries in order. -/
def textBetween? (code : String) (start stop : Nat) : Option String :=
  if h : IsBoundary code start ∧ IsBoundary code stop ∧ start ≤ stop then
    some (code.extract (code.pos ⟨start⟩ h.1) (code.pos ⟨stop⟩ h.2.1))
  else none

variable {code : String} {m n : Nat}

theorem boundaryBefore?_eq_some (hm : IsBoundary code m) (hle : m ≤ n)
    (hgap : ∀ k, m < k → k ≤ n → ¬ IsBoundary code k) : boundaryBefore? code n = some m := by
  induction n with
  | zero =>
    cases Nat.le_zero.1 hle
    rw [boundaryBefore?, if_pos hm]
  | succ n ih =>
    rw [boundaryBefore?]
    obtain hlt | rfl := Nat.lt_or_eq_of_le hle
    · rw [if_neg (hgap (n + 1) hlt (Nat.le_refl _))]
      exact ih (Nat.le_of_lt_succ hlt) fun k hk hkn ↦ hgap k hk (Nat.le_succ_of_le hkn)
    · rw [if_pos hm]

theorem IsBoundary.le (h : IsBoundary code n) : n ≤ code.utf8ByteSize :=
  String.Pos.Raw.IsValid.le_utf8ByteSize h

theorem boundaryAfter?_eq_some (hm : IsBoundary code m) (hle : n ≤ m)
    (hgap : ∀ k, n ≤ k → k < m → ¬ IsBoundary code k) : boundaryAfter? code n = some m := by
  induction hsteps : m - n generalizing n with
  | zero =>
    cases Nat.le_antisymm hle (Nat.le_of_sub_eq_zero hsteps)
    rw [boundaryAfter?, if_pos hm]
  | succ steps ih =>
    have hlt : n < m := by omega
    rw [boundaryAfter?, if_neg (hgap n (Nat.le_refl _) hlt),
      if_pos (Nat.lt_of_lt_of_le hlt hm.le)]
    exact ih hlt (fun k hk ↦ hgap k (Nat.le_of_succ_le hk)) (by omega)

theorem byteLength_eq (cs : List Char) : byteLength cs = (String.ofList cs).utf8ByteSize := by
  induction cs with
  | nil => rfl
  | cons c cs ih =>
    rw [← List.singleton_append, String.ofList_append, String.utf8ByteSize_append, ← ih,
      ← String.singleton_eq_ofList, String.utf8ByteSize_singleton]
    rfl

theorem Text.bytes_ofString (code : String) : (ofString code).bytes = code.utf8ByteSize := by
  rw [bytes, byteLength_eq]
  exact congrArg String.utf8ByteSize String.ofList_toList

/-- Boundaries are the byte offsets of positions. -/
theorem isBoundary_iff : IsBoundary code n ↔
    ∃ i ≤ (Text.ofString code).size, (Text.ofString code).byteOffset i = n := by
  have hoffset {i : Nat} (hi : i ≤ (Text.ofString code).size) :
      (Text.ofString code).byteOffset i = (String.ofList (code.toList.take i)).utf8ByteSize := by
    rw [Text.byteOffset_eq _ hi, byteLength_eq]
    rfl
  rw [IsBoundary, String.Pos.Raw.isValid_iff_exists_take_toList]
  constructor
  · rintro ⟨i, rfl⟩
    refine ⟨min i (Text.ofString code).size, Nat.min_le_right _ _, ?_⟩
    rw [hoffset (Nat.min_le_right _ _), List.take_eq_take_min (i := i)]
    rfl
  · rintro ⟨i, hi, rfl⟩
    exact ⟨i, hoffset hi⟩

theorem boundaryBefore?_eq (code : String) (n : Nat) :
    boundaryBefore? code n =
      some ((Text.ofString code).byteOffset ((Text.ofString code).floorPosition n)) := by
  let t := Text.ofString code
  refine boundaryBefore?_eq_some (isBoundary_iff.2 ⟨_, t.floorPosition_le n, rfl⟩)
    (t.byteOffset_floorPosition_le n) fun k hlt hle hk ↦ ?_
  obtain ⟨i, hi, rfl⟩ := isBoundary_iff.1 hk
  exact Nat.not_le.2 hlt
    (t.byteOffset_mono (t.le_floorPosition hi hle) (t.floorPosition_le n))

theorem boundaryAfter?_eq (h : n ≤ code.utf8ByteSize) :
    boundaryAfter? code n =
      some ((Text.ofString code).byteOffset ((Text.ofString code).ceilPosition n)) := by
  let t := Text.ofString code
  rw [← Text.bytes_ofString] at h
  refine boundaryAfter?_eq_some (isBoundary_iff.2 ⟨_, t.ceilPosition_le h, rfl⟩)
    (t.le_byteOffset_ceilPosition h) fun k hle hlt hk ↦ ?_
  obtain ⟨i, hi, rfl⟩ := isBoundary_iff.1 hk
  exact Nat.not_le.2 hlt (t.byteOffset_mono (t.ceilPosition_le_of_le h hle) hi)

section Slices

variable {i j : Nat} (hij : i ≤ j) (hj : j ≤ (Text.ofString code).size)
include hij hj

/-- The bytes of a slice lie between the byte offsets of its ends. -/
theorem toByteArray_slice : ((Text.ofString code).slice i j).toByteArray =
    code.toByteArray.extract ((Text.ofString code).byteOffset i)
      ((Text.ofString code).byteOffset j) := by
  let t := Text.ofString code
  have hsize {k : Nat} (hk : k ≤ t.size) : (t.slice 0 k).toByteArray.size = t.byteOffset k := by
    rw [String.size_toByteArray, Text.slice, ← byteLength_eq, Text.byteOffset,
      Nat.sub_eq_zero_of_le hk, Nat.add_zero]
  -- How long the text is before the slice, and up to its end, tells where the slice is.
  have hstart := hsize (Nat.le_trans hij hj)
  have hstop := hsize hj
  rw [← t.slice_append (Nat.zero_le i) hij, String.toByteArray_append, ByteArray.size_append,
    hstart] at hstop
  have hcode : code = t.slice 0 i ++ (t.slice i j ++ t.slice j t.size) := by
    rw [t.slice_append hij hj, t.slice_append (Nat.zero_le i) (Nat.le_trans hij hj)]
    exact (Text.rest_ofString code).symm
  have hbytes := congrArg String.toByteArray hcode
  rw [String.toByteArray_append, String.toByteArray_append] at hbytes
  calc (t.slice i j).toByteArray
      = ((t.slice i j).toByteArray ++ (t.slice j t.size).toByteArray).extract 0
          (t.slice i j).toByteArray.size := (ByteArray.extract_append_eq_left rfl).symm
    _ = code.toByteArray.extract (t.byteOffset i + 0)
          (t.byteOffset i + (t.slice i j).toByteArray.size) := by
        rw [hbytes, ByteArray.extract_append_size_add' hstart.symm]
    _ = code.toByteArray.extract (t.byteOffset i) (t.byteOffset j) := by rw [Nat.add_zero, hstop]

theorem textBetween?_eq : textBetween? code ((Text.ofString code).byteOffset i)
    ((Text.ofString code).byteOffset j) = some ((Text.ofString code).slice i j) := by
  let t := Text.ofString code
  have hcut : IsBoundary code (t.byteOffset i) ∧ IsBoundary code (t.byteOffset j) ∧
      t.byteOffset i ≤ t.byteOffset j :=
    ⟨isBoundary_iff.2 ⟨i, Nat.le_trans hij hj, rfl⟩, isBoundary_iff.2 ⟨j, hj, rfl⟩,
      t.byteOffset_mono hij hj⟩
  rw [textBetween?, dif_pos hcut, Option.some.injEq, ← String.toByteArray_inj,
    String.toByteArray_extract, toByteArray_slice hij hj]
  rfl

end Slices

end SyntaxHighlight
