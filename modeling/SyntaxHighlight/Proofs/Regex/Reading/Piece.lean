import Mathlib.Data.List.TakeDrop
import SyntaxHighlight.Regex.Escape
import SyntaxHighlight.Proofs.Outcome

/-!
Readers of the source of a regular expression take a piece off its front. What they make of the
piece does not depend on the text after it, as long as that starts in the same way.
-/
namespace SyntaxHighlight.Regex

open Unicode

/-- No reader that is in the middle of something goes on: there is nothing more, or a character
that ends an alternative, starts an escape or opens a group, unless that is a comment. -/
def Stops : List Char → Prop
  | [] => True
  | c :: cs => c = '\x29' ∨ c = '\x7c' ∨ c = '\\' ∨ c = '\x28' ∧ ¬['?', '#'] <+: cs

instance : DecidablePred Stops
  | [] => .isTrue trivial
  | c :: cs => inferInstanceAs
    (Decidable (c = '\x29' ∨ c = '\x7c' ∨ c = '\\' ∨ c = '\x28' ∧ ¬['?', '#'] <+: cs))

theorem Stops.head {c : Char} {cs : List Char} (h : Stops (c :: cs)) : Stops [c] := by
  obtain h | h | h | ⟨h, -⟩ := h
  · exact .inl h
  · exact .inr (.inl h)
  · exact .inr (.inr (.inl h))
  · exact .inr (.inr (.inr ⟨h, by decide⟩))

/-- Two texts that start in the same way, up to where both stop. -/
inductive Agree : List Char → List Char → Prop
  | stop {cs cs' : List Char} : Stops cs → Stops cs' → Agree cs cs'
  | cons (c : Char) {cs cs' : List Char} : Agree cs cs' → Agree (c :: cs) (c :: cs')

namespace Agree

variable {c : Char} {cs cs' piece : List Char}

theorem refl : ∀ cs, Agree cs cs
  | [] => .stop trivial trivial
  | c :: cs => .cons c (refl cs)

theorem symm (h : Agree cs cs') : Agree cs' cs := by
  induction h with
  | stop h h' => exact .stop h' h
  | cons c _ ih => exact .cons c ih

theorem append (h : Agree cs cs') : ∀ piece, Agree (piece ++ cs) (piece ++ cs')
  | [] => h
  | c :: piece => .cons c (h.append piece)

theorem of_cons (h : Agree (c :: cs) cs') (hc : ¬Stops [c]) :
    ∃ rest, cs' = c :: rest ∧ Agree cs rest := by
  cases h with
  | stop h => exact absurd h.head hc
  | cons _ h => exact ⟨_, rfl, h⟩

theorem of_append (h : Agree (piece ++ cs) cs') (hpiece : ∀ c ∈ piece, ¬Stops [c]) :
    ∃ rest, cs' = piece ++ rest ∧ Agree cs rest := by
  induction piece generalizing cs' with
  | nil => exact ⟨cs', rfl, h⟩
  | cons c piece ih =>
    obtain ⟨mid, rfl, hmid⟩ := h.of_cons (hpiece c List.mem_cons_self)
    obtain ⟨rest, rfl, hrest⟩ := ih hmid fun d hd ↦ hpiece d (List.mem_cons_of_mem _ hd)
    exact ⟨rest, rfl, hrest⟩

/-- What does not start with a character of some kind does not start to where it stops. -/
theorem head_any_eq_false (h : Agree cs cs') {p : Char → Bool}
    (hp : ∀ c, p c = true → ¬Stops [c]) (hcs : cs.head?.any p = false) :
    cs'.head?.any p = false := by
  cases h with
  | stop _ h' =>
    cases cs' with
    | nil => rfl
    | cons c cs' =>
      cases hc : p c with
      | false => exact hc
      | true => exact absurd h'.head (hp c hc)
  | cons c h => exact hcs

end Agree

/-- Every backslash has the character that it escapes after it. -/
inductive Paired : List Char → Prop
  | nil : Paired []
  | plain {c : Char} {cs : List Char} : c ≠ '\\' → Paired cs → Paired (c :: cs)
  | escaped (c : Char) {cs : List Char} : Paired cs → Paired ('\\' :: c :: cs)

namespace Paired

variable {cs cs' : List Char}

theorem append (h : Paired cs) (h' : Paired cs') : Paired (cs ++ cs') := by
  induction h with
  | nil => exact h'
  | plain hc _ ih => exact .plain hc ih
  | escaped c _ ih => exact .escaped c ih

theorem of_escaped (h : Paired ('\\' :: cs)) : ∃ c more, cs = c :: more ∧ Paired more := by
  cases h with
  | plain h => exact absurd rfl h
  | escaped c h => exact ⟨c, _, rfl, h⟩

theorem of_notMem (h : '\\' ∉ cs) : Paired cs := by
  induction cs with
  | nil => exact .nil
  | cons c cs ih =>
    obtain ⟨hc, hcs⟩ := not_or.1 (mt List.mem_cons.2 h)
    exact .plain (Ne.symm hc) (ih hcs)

theorem of_forall {p : Char → Bool} (h : ∀ c ∈ cs, p c = true)
    (hp : ∀ c, p c = true → ¬Stops [c]) : Paired cs :=
  .of_notMem fun hmem ↦ hp _ (h _ hmem) (.inr (.inr (.inl rfl)))

end Paired

/-- The reader takes a piece off the text and leaves `rest`. Off every text that goes on in the
same way after the piece it takes the same. -/
def Takes {β : Type} (read : List Char → Except PatternError β) (found : List Char → β)
    (cs rest : List Char) : Prop :=
  ∃ piece, cs = piece ++ rest ∧
    ∀ rest', Agree rest rest' → read (piece ++ rest') = .ok (found rest')

/-- The same of a reader of what stands after a backslash. -/
def TakesEscaped {β : Type} (read : List Char → Except PatternError β) (found : List Char → β)
    (cs rest : List Char) : Prop :=
  ∃ piece, cs = piece ++ rest ∧ Paired ('\\' :: piece) ∧
    ∀ rest', Agree rest rest' → read (piece ++ rest') = .ok (found rest')

section Numerals

theorem spanAtMost_takes {p : Char → Bool} {most : Nat} {cs digits rest : List Char}
    (h : spanAtMost p most cs = (digits, rest)) (hp : ∀ c, p c = true → ¬Stops [c]) :
    cs = digits ++ rest ∧ (∀ c ∈ digits, p c = true) ∧
      ∀ rest', Agree rest rest' → spanAtMost p most (digits ++ rest') = (digits, rest') := by
  induction most generalizing cs digits rest with
  | zero =>
    cases h
    exact ⟨rfl, nofun, fun rest' _ ↦ rfl⟩
  | succ most ih =>
    have hnone {rest' : List Char} (h : rest'.head?.any p = false) :
        spanAtMost p (most + 1) rest' = ([], rest') := by
      cases rest' with
      | nil => rfl
      | cons c rest' =>
        have hc : p c = false := h
        simp [spanAtMost, hc]
    cases cs with
    | nil =>
      cases h
      exact ⟨rfl, nofun, fun rest' hrest ↦ hnone (hrest.head_any_eq_false hp rfl)⟩
    | cons c cs =>
      rw [spanAtMost] at h
      split at h
      · rename_i hc
        obtain ⟨hcs, hall, hread⟩ :=
          ih (show spanAtMost p most cs = (_, (spanAtMost p most cs).2) from rfl)
        cases h
        refine ⟨by rw [List.cons_append, ← hcs], ?_, fun rest' hrest ↦ ?_⟩
        · intro d hd
          obtain rfl | hd := List.mem_cons.1 hd
          · exact hc
          · exact hall d hd
        · rw [List.cons_append, spanAtMost, if_pos hc, hread rest' hrest]
      · rename_i hc
        cases h
        exact ⟨rfl, nofun, fun rest' hrest ↦
          hnone (hrest.head_any_eq_false hp (by simpa using hc))⟩

theorem span_append {p : Char → Bool} {digits rest : List Char} (hall : ∀ c ∈ digits, p c = true)
    (hrest : rest.head?.any p = false) : (digits ++ rest).span p = (digits, rest) := by
  have hstop : rest.takeWhile p = [] ∧ rest.dropWhile p = rest := by
    cases rest with
    | nil => exact ⟨rfl, rfl⟩
    | cons c rest =>
      have hc : p c = false := hrest
      simp [hc]
  rw [List.span_eq_takeWhile_dropWhile, List.takeWhile_append_of_pos hall,
    List.dropWhile_append_of_pos hall, hstop.1, hstop.2, List.append_nil]

theorem span_takes {p : Char → Bool} {cs digits rest : List Char}
    (h : cs.span p = (digits, rest)) :
    cs = digits ++ rest ∧ (∀ c ∈ digits, p c = true) ∧ rest.head?.any p = false ∧
      ∀ rest' : List Char, rest'.head?.any p = false →
        (digits ++ rest').span p = (digits, rest') := by
  rw [List.span_eq_takeWhile_dropWhile] at h
  cases h
  have hall := List.all_eq_true.1 (List.all_takeWhile (p := p) (l := cs))
  refine ⟨List.takeWhile_append_dropWhile.symm, hall, ?_, fun rest' hrest ↦ span_append hall hrest⟩
  have hnot := List.head?_dropWhile_not p cs
  cases hhead : (cs.dropWhile p).head? with
  | none => rfl
  | some c =>
    rw [hhead] at hnot
    exact hnot

theorem isAsciiDigit_not_stops (c : Char) (h : isAsciiDigit c = true) : ¬Stops [c] := by
  rintro (rfl | rfl | rfl | ⟨rfl, -⟩) <;> cases h

theorem isOctalDigit_not_stops (c : Char) (h : isOctalDigit c = true) : ¬Stops [c] := by
  rintro (rfl | rfl | rfl | ⟨rfl, -⟩) <;> cases h

theorem isHexDigit_not_stops (c : Char) (h : isHexDigit c = true) : ¬Stops [c] := by
  rintro (rfl | rfl | rfl | ⟨rfl, -⟩) <;> cases h

theorem decimal?_takes {cs rest : List Char} {n : Option Nat} (h : decimal? cs = (n, rest)) :
    ∃ digits, cs = digits ++ rest ∧ (∀ c ∈ digits, isAsciiDigit c = true) ∧
      ∀ rest', Agree rest rest' → decimal? (digits ++ rest') = (n, rest') := by
  rw [decimal?] at h
  split at h
  all_goals
    rename_i hspan
    cases h
    obtain ⟨hcs, hall, hrest, hread⟩ := span_takes hspan
    refine ⟨_, hcs, hall, fun rest' hrest' ↦ ?_⟩
    rw [decimal?, hread rest' (hrest'.head_any_eq_false isAsciiDigit_not_stops hrest)]
  rename_i digits hdigits
  cases digits with
  | nil => exact absurd rfl hdigits
  | cons => rfl

end Numerals

end SyntaxHighlight.Regex
