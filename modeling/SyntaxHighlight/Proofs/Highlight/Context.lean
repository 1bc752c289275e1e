import SyntaxHighlight.Highlight.Highlighter
import SyntaxHighlight.Proofs.Text.Boundary

/-!
The context that is shown of illegal text. Main statement: it is what two searches among the bytes
of the text cut out, and they stay in the text and close to the offset that they start from.
-/
namespace SyntaxHighlight.Highlighter

/-- The context of a byte offset, cut out of the bytes of a text. None if one of the searches for
its ends leaves the text, or if the text cannot be cut where they stop. -/
def contextAmongBytes? (code : String) (offset : Nat) : Option String := do
  let start ← boundaryBefore? code (offset - contextRadius)
  let stop ← boundaryAfter? code (min (offset + contextRadius) code.utf8ByteSize)
  textBetween? code start stop

/-- What the ends of a context keep to. -/
structure Surrounds (code : String) (offset start stop : Nat) : Prop where
  start_boundary : IsBoundary code start
  stop_boundary : IsBoundary code stop
  start_le : start ≤ offset
  le_stop : offset ≤ stop
  start_near : offset ≤ start + 103
  stop_near : stop ≤ offset + 103
  start_eq : offset ≤ 100 → start = 0
  stop_eq : code.utf8ByteSize ≤ offset + 100 → stop = code.utf8ByteSize
  wide_before : min offset 100 ≤ offset - start
  wide_after : min (code.utf8ByteSize - offset) 100 ≤ stop - offset

variable {code : String} {offset : Nat}

/-- Boundaries that are at most three bytes further away than a hundred bytes, or than the end. -/
theorem Surrounds.of_near {start stop : Nat} (h : offset ≤ code.utf8ByteSize)
    (hstart : IsBoundary code start) (hstop : IsBoundary code stop)
    (hlow : start ≤ offset - contextRadius ∧ offset - contextRadius ≤ start + 3)
    (hhigh : min (offset + contextRadius) code.utf8ByteSize ≤ stop ∧
      stop ≤ min (offset + contextRadius) code.utf8ByteSize + 3) :
    Surrounds code offset start stop := by
  have hend := hstop.le
  rw [contextRadius] at hlow hhigh
  exact
    { start_boundary := hstart
      stop_boundary := hstop
      start_le := by omega
      le_stop := by omega
      start_near := by omega
      stop_near := by omega
      start_eq := by omega
      stop_eq := by omega
      wide_before := by omega
      wide_after := by omega }

/-- The context of an offset is found among the bytes of the text, whatever characters lie around
its ends. It has all of the hundred bytes on either side that there are, and at most the rest of
one more character. -/
theorem contextAround_surrounds (h : offset ≤ code.utf8ByteSize) :
    contextAmongBytes? code offset = some (contextAround (.ofString code) offset) ∧
      ∃ start stop, Surrounds code offset start stop ∧
        (contextAround (.ofString code) offset).toByteArray =
          code.toByteArray.extract start stop := by
  let t := Text.ofString code
  let low := offset - contextRadius
  let high := min (offset + contextRadius) code.utf8ByteSize
  have hbytes : t.bytes = code.utf8ByteSize := Text.bytes_ofString code
  have hlow : low ≤ t.bytes := by omega
  have hhigh : high ≤ t.bytes := hbytes ▸ Nat.min_le_right _ _
  have hstop := t.ceilPosition_le hhigh
  have hnear : Surrounds code offset (t.byteOffset (t.floorPosition low))
      (t.byteOffset (t.ceilPosition high)) :=
    .of_near h (isBoundary_iff.2 ⟨_, t.floorPosition_le low, rfl⟩)
      (isBoundary_iff.2 ⟨_, hstop, rfl⟩)
      ⟨t.byteOffset_floorPosition_le low, t.le_byteOffset_floorPosition hlow⟩
      ⟨t.le_byteOffset_ceilPosition hhigh, t.byteOffset_ceilPosition_le hhigh⟩
  have horder : t.floorPosition low ≤ t.ceilPosition high := by
    refine Nat.le_of_not_lt fun hlt ↦ ?_
    have hreversed := t.byteOffset_lt hlt (t.floorPosition_le low)
    exact Nat.not_le.2 hreversed (Nat.le_trans hnear.start_le hnear.le_stop)
  have hcontext : contextAround t offset =
      t.slice (t.floorPosition low) (t.ceilPosition high) := by
    rw [contextAround, hbytes]
  refine ⟨?_, _, _, hnear, ?_⟩
  · rw [contextAmongBytes?, boundaryBefore?_eq, boundaryAfter?_eq (Nat.min_le_right _ _)]
    exact (textBetween?_eq horder hstop).trans (congrArg some hcontext.symm)
  · rw [hcontext]
    exact toByteArray_slice horder hstop

/-- Signs of three bytes each: both ends of a context in the middle fall within one. -/
def euros : String := String.ofList (List.replicate 80 '€')

theorem euros_surrounded :
    120 ≤ euros.utf8ByteSize ∧
      contextAmongBytes? euros 120 = some (contextAround (.ofString euros) 120) ∧
      ∃ start stop, Surrounds euros 120 start stop ∧
        (contextAround (.ofString euros) 120).toByteArray =
          euros.toByteArray.extract start stop := by
  have hbytes : 120 ≤ byteLength (List.replicate 80 '€') := by decide +kernel
  have h : 120 ≤ euros.utf8ByteSize := byteLength_eq _ ▸ hbytes
  exact ⟨h, contextAround_surrounds h⟩

end SyntaxHighlight.Highlighter
