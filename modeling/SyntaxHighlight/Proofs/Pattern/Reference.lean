import SyntaxHighlight.Pattern.Reference
import SyntaxHighlight.Proofs.Regex.Reading.Mirror

/-! The pieces of a pattern make up the pattern, and moving their references renumbers it. -/
namespace SyntaxHighlight.Pattern

open Regex Unicode

/-- The references among the pieces: how much of the pattern is left from their digits on, with the
parenthesis that follows the pattern, and the numbers. -/
def references : List Token → List (Nat × Nat)
  | [] => []
  | .reference digits :: ts =>
    ((digits ++ ts.flatMap Token.chars).length + 1, numeralValue 10 digits) :: references ts
  | _ :: ts => references ts

variable {offset : Nat} {tail cs rest text digits : List Char} {c : Char}

theorem bracketedText?_append (h : bracketedText? cs = some (text, rest)) : cs = text ++ rest := by
  fun_induction bracketedText? cs generalizing text with
  | case1 => cases h
  | case2 => cases h; rfl
  | case3 => cases h
  | case4 c cs hc ih =>
    obtain ⟨⟨text, last⟩, hlast, heq⟩ := Option.map_eq_some_iff.1 h
    cases heq
    rw [ih hlast]
    rfl
  | case5 => cases h
  | case6 c cs _ _ _ ih =>
    obtain ⟨⟨text, last⟩, hlast, heq⟩ := Option.map_eq_some_iff.1 h
    cases heq
    rw [ih hlast]
    rfl

/-- The first piece is what the pattern starts with. If it is a reference, its digits spell a
number and are all that there are. -/
theorem firstToken_append (c : Char) (cs : List Char) :
    c :: cs = (firstToken c cs).1.chars ++ (firstToken c cs).2 ∧
      (firstToken c cs).1.chars ≠ [] ∧ ∀ digits, (firstToken c cs).1 = .reference digits →
        Spells digits (numeralValue 10 digits) ∧
          (firstToken c cs).2.head?.any isAsciiDigit = false := by
  rw [firstToken.eq_def]
  split
  · split
    · rename_i hbracketed
      refine ⟨?_, nofun, nofun⟩
      rw [bracketedText?_append hbracketed]
      rfl
    · exact ⟨rfl, nofun, nofun⟩
  · exact ⟨rfl, nofun, nofun⟩
  · exact ⟨rfl, nofun, nofun⟩
  · rename_i d rest
    split
    · rename_i hd
      obtain ⟨digits, last, hspan⟩ :
          ∃ digits last, (d :: rest).span isAsciiDigit = (digits, last) :=
        ⟨_, _, rfl⟩
      obtain ⟨hrest, hall, hlast, -⟩ := span_takes hspan
      rw [hspan]
      refine ⟨by rw [hrest]; rfl, nofun, fun _ heq ↦ ?_⟩
      cases heq
      refine ⟨⟨hall, ?_, rfl⟩, hlast⟩
      cases digits with
      | nil =>
        cases hrest
        rw [List.head?_cons, Option.any_some, hd.1] at hlast
        cases hlast
      | cons e digits =>
        cases hrest
        simpa using hd.2
    · split
      · exact ⟨rfl, nofun, nofun⟩
      · exact ⟨rfl, nofun, nofun⟩
  · exact ⟨rfl, nofun, nofun⟩

theorem firstToken_length (c : Char) (cs : List Char) : (firstToken c cs).2.length ≤ cs.length := by
  obtain ⟨happend, hne, -⟩ := firstToken_append c cs
  have hlength := congrArg List.length happend
  have hpos := List.length_pos_iff.2 hne
  rw [List.length_cons, List.length_append] at hlength
  omega

theorem flatMap_tokensFrom {fuel : Nat} (h : cs.length ≤ fuel) :
    (tokensFrom fuel cs).flatMap Token.chars = cs := by
  induction fuel generalizing cs with
  | zero => rw [List.eq_nil_of_length_eq_zero (Nat.le_zero.1 h), tokensFrom, List.flatMap_nil]
  | succ fuel ih =>
    cases cs with
    | nil => rfl
    | cons c cs =>
      have hlength := firstToken_length c cs
      rw [List.length_cons] at h
      rw [tokensFrom, List.flatMap_cons, ih (by omega)]
      exact (firstToken_append c cs).1.symm

/-- Rewriting each reference, and nothing else, so that it is moved renumbers the pattern. -/
theorem renumbered_tokensFrom {fuel : Nat} {rewrite : Token → List Char} (h : cs.length ≤ fuel)
    (hother : ∀ token, (∀ digits, token ≠ .reference digits) → rewrite token = token.chars)
    (hreference : ∀ m ∈ references (tokensFrom fuel cs), ∀ digits, Spells digits m.2 →
      ∃ digits', rewrite (.reference digits) = '\\' :: digits' ∧ Spells digits' (m.2 + offset)) :
    Renumbered offset tail (references (tokensFrom fuel cs)) (cs ++ ['\x29'])
      ((tokensFrom fuel cs).flatMap rewrite ++ tail) := by
  induction fuel generalizing cs with
  | zero =>
    obtain rfl := List.eq_nil_of_length_eq_zero (Nat.le_zero.1 h)
    exact .done
  | succ fuel ih =>
    cases cs with
    | nil => exact .done
    | cons c cs =>
      have hlength := firstToken_length c cs
      rw [List.length_cons] at h
      obtain ⟨happend, -, hdigits⟩ := firstToken_append c cs
      rw [tokensFrom] at hreference ⊢
      generalize firstToken c cs = first at happend hdigits hlength hreference
      obtain ⟨token, rest⟩ := first
      dsimp only at happend hdigits hlength hreference ⊢
      have hrest : rest.length ≤ fuel := by omega
      have hplain (hne : ∀ digits, token ≠ .reference digits)
          (hsame : references (token :: tokensFrom fuel rest) = references (tokensFrom fuel rest)) :
          Renumbered offset tail (references (token :: tokensFrom fuel rest)) (c :: cs ++ ['\x29'])
            ((token :: tokensFrom fuel rest).flatMap rewrite ++ tail) := by
        rw [hsame] at hreference ⊢
        rw [happend, List.flatMap_cons, hother token hne, List.append_assoc, List.append_assoc]
        exact (ih hrest hreference).prepend _
      cases token with
      | reference digits =>
        obtain ⟨hspells, hlast⟩ := hdigits digits rfl
        obtain ⟨digits', hrewrite, hspells'⟩ := hreference _ List.mem_cons_self digits hspells
        have hfollowing := ih hrest fun m hm ↦ hreference m (List.mem_cons_of_mem _ hm)
        have hlast' : (rest ++ ['\x29']).head?.any isAsciiDigit = false := by
          cases rest with
          | nil => rfl
          | cons d rest => exact hlast
        have hnumber := Renumbered.number hspells hspells' hlast' hfollowing
        rw [← List.append_assoc, List.length_append, List.length_singleton] at hnumber
        rw [happend, references, flatMap_tokensFrom hrest, List.flatMap_cons, hrewrite]
        simpa only [Token.chars, List.cons_append, List.append_assoc] using hnumber
      | bracketed | opening | special | escape | plain => exact hplain nofun rfl

/-- A source with something else for the parenthesis after it. Only references would have to move
behind other groups. -/
theorem renumbered_unmoved (tail : List Char) (h : offset = 0 ∨ references (tokens cs) = []) :
    Renumbered offset tail (references (tokens cs)) (cs ++ ['\x29']) (cs ++ tail) := by
  have hsame : Renumbered offset tail (references (tokens cs)) (cs ++ ['\x29'])
      ((tokens cs).flatMap Token.chars ++ tail) := by
    refine renumbered_tokensFrom (Nat.le_refl cs.length) (fun _ _ ↦ rfl)
      fun m hm digits hdigits ↦ ?_
    obtain rfl | hnone := h
    · exact ⟨digits, rfl, hdigits⟩
    · have hm : m ∈ references (tokens cs) := hm
      rw [hnone] at hm
      cases hm
  rwa [tokens, flatMap_tokensFrom (Nat.le_refl _)] at hsame

theorem renumbered_shifted (offset : Nat) (tail : List Char)
    (hle : ∀ m ∈ references (tokens cs), m.2 ≤ greatest64) :
    Renumbered offset tail (references (tokens cs)) (cs ++ ['\x29'])
      ((tokens cs).flatMap (Token.shifted offset) ++ tail) := by
  refine renumbered_tokensFrom (Nat.le_refl _) (fun token hne ↦ ?_) fun m hm digits hdigits ↦ ?_
  · cases token with
    | reference digits => exact absurd rfl (hne digits)
    | bracketed | opening | special | escape | plain => rfl
  · have hpos : 0 < m.2 + offset := Nat.lt_of_lt_of_le hdigits.pos (Nat.le_add_right _ _)
    refine ⟨_, ?_, spells_toString hpos⟩
    rw [Token.shifted, hdigits.value, if_pos (hle m hm)]

theorem flatMap_shifted {ts : List Token} (h : references ts = []) (offset offset' : Nat) :
    ts.flatMap (Token.shifted offset) = ts.flatMap (Token.shifted offset') := by
  induction ts with
  | nil => rfl
  | cons t ts ih =>
    cases t with
    | reference digits => cases h
    | bracketed | opening | special | escape | plain =>
      rw [List.flatMap_cons, List.flatMap_cons, ih h]
      rfl

end SyntaxHighlight.Pattern
