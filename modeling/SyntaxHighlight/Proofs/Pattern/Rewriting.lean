import Mathlib
import SyntaxHighlight.Proofs.Pattern.Reference

/-!
Joining patterns touches nothing but the numbers of their references. How a pattern is read in
pieces is told without the reader, which finds the only way there is.
-/
namespace SyntaxHighlight.Pattern

open Regex Unicode

/-- What may stand between the brackets of a class: closing brackets only after a backslash, and no
newline after one. -/
inductive ClassBody : List Char → Prop
  | nil : ClassBody []
  | char {c : Char} {cs : List Char} : c ≠ '\\' → c ≠ ']' → ClassBody cs → ClassBody (c :: cs)
  | escaped {c : Char} {cs : List Char} : c ≠ '\n' → ClassBody cs → ClassBody ('\\' :: c :: cs)

/-- A character that starts a number after a backslash. -/
def StartsNumber (c : Char) : Prop := isAsciiDigit c = true ∧ c ≠ '0'

/-- A piece that a pattern starts with, and what follows it. -/
inductive StartsWith : List Char → Token → List Char → Prop
  | bracketed {body rest : List Char} : ClassBody body →
      StartsWith ('[' :: (body ++ ']' :: rest)) (.bracketed ('[' :: (body ++ [']']))) rest
  | special {rest : List Char} : StartsWith ('\x28' :: '?' :: rest) .special rest
  | opening {rest : List Char} : rest.head? ≠ some '?' → StartsWith ('\x28' :: rest) .opening rest
  | reference {c : Char} {digits rest : List Char} : StartsNumber c →
      (∀ d ∈ digits, isAsciiDigit d = true) → rest.head?.any isAsciiDigit = false →
      StartsWith ('\\' :: c :: (digits ++ rest)) (.reference (c :: digits)) rest
  | escape {c : Char} {rest : List Char} : ¬ StartsNumber c → c ≠ '\n' →
      StartsWith ('\\' :: c :: rest) (.escape c) rest
  | plain {c : Char} {rest : List Char} :
      (c = '[' → ∀ body after, ClassBody body → rest ≠ body ++ ']' :: after) → c ≠ '\x28' →
      (c = '\\' → rest.head?.all (· = '\n') = true) → StartsWith (c :: rest) (.plain c) rest

inductive Reads : List Char → List Token → Prop
  | nil : Reads [] []
  | cons {cs rest : List Char} {t : Token} {ts : List Token} : StartsWith cs t rest →
      Reads rest ts → Reads cs (t :: ts)

section Reading

variable {cs rest text body : List Char} {c : Char} {t : Token} {ts : List Token}

theorem ClassBody.bracketedText? (h : ClassBody body) (rest : List Char) :
    bracketedText? (body ++ ']' :: rest) = some (body ++ [']'], rest) := by
  induction h with
  | nil => rfl
  | @char c cs hslash hbracket _ ih =>
    rw [List.cons_append, Pattern.bracketedText?, ih]
    · rfl
    · exact hbracket
    · exact fun _ _ heq _ ↦ hslash heq
    · exact fun heq _ ↦ hslash heq
  | escaped hc _ ih =>
    rw [List.cons_append, List.cons_append, Pattern.bracketedText?, if_neg hc, ih]
    rfl

/-- The text of a class is found if there is one. -/
theorem bracketedText?_eq_some : bracketedText? cs = some (text, rest) ↔
    ∃ body, ClassBody body ∧ cs = body ++ ']' :: rest ∧ text = body ++ [']'] := by
  constructor
  · intro h
    fun_induction Pattern.bracketedText? cs generalizing text with
    | case1 => cases h
    | case2 =>
      cases h
      exact ⟨[], .nil, rfl, rfl⟩
    | case3 => cases h
    | case4 c cs hc ih =>
      obtain ⟨⟨text, last⟩, hlast, heq⟩ := Option.map_eq_some_iff.1 h
      cases heq
      obtain ⟨body, hbody, rfl, rfl⟩ := ih hlast
      exact ⟨_, .escaped hc hbody, rfl, rfl⟩
    | case5 => cases h
    | case6 c cs hbracket hslash hend ih =>
      obtain ⟨⟨text, last⟩, hlast, heq⟩ := Option.map_eq_some_iff.1 h
      cases heq
      obtain ⟨body, hbody, rfl, rfl⟩ := ih hlast
      have hchar : c ≠ '\\' := by
        intro hc
        cases hbody with
        | nil => exact hslash _ _ hc rfl
        | char => exact hslash _ _ hc rfl
        | escaped => exact hslash _ _ hc rfl
      exact ⟨_, .char hchar hbracket hbody, rfl, rfl⟩
  · rintro ⟨body, hbody, rfl, rfl⟩
    exact hbody.bracketedText? rest

theorem firstToken_eq (h : StartsWith (c :: cs) t rest) : firstToken c cs = (t, rest) := by
  generalize hall : c :: cs = all at h
  cases h with
  | bracketed hbody =>
    cases hall
    rw [firstToken, hbody.bracketedText?]
  | special =>
    cases hall
    rfl
  | @opening rest hrest =>
    cases hall
    cases cs with
    | nil => rfl
    | cons d cs =>
      have hd : d ≠ '?' := fun hd ↦ hrest (congrArg some hd)
      rw [firstToken]
      exact fun _ heq ↦ hd (List.cons.inj heq).1
  | @reference c digits rest hc hdigits hrest =>
    cases hall
    have hspan : (c :: (digits ++ rest)).span isAsciiDigit = (c :: digits, rest) :=
      span_append (List.forall_mem_cons.2 ⟨hc.1, hdigits⟩) hrest
    have hdigit : isAsciiDigit c = true ∧ c ≠ '0' := hc
    rw [firstToken, if_pos hdigit, hspan]
  | @escape c rest hc hnewline =>
    cases hall
    have hdigit : ¬ (isAsciiDigit c = true ∧ c ≠ '0') := hc
    rw [firstToken, if_neg hdigit, if_neg hnewline]
  | plain hbracket hopening hslash =>
    cases hall
    rw [firstToken.eq_def]
    split
    · split
      · rename_i hbracketed
        obtain ⟨body, hbody, hcs, -⟩ := bracketedText?_eq_some.1 hbracketed
        exact absurd hcs (hbracket rfl body _ hbody)
      · rfl
    · exact absurd rfl hopening
    · exact absurd rfl hopening
    · rename_i d rest
      have hd : d = '\n' := of_decide_eq_true (hslash rfl)
      subst hd
      rw [if_neg fun hdigit ↦ Bool.false_ne_true hdigit.1, if_pos rfl]
    · rfl

theorem startsWith_firstToken (c : Char) (cs : List Char) :
    StartsWith (c :: cs) (firstToken c cs).1 (firstToken c cs).2 := by
  rw [firstToken.eq_def]
  split
  · split
    · rename_i hbracketed
      obtain ⟨body, hbody, rfl, rfl⟩ := bracketedText?_eq_some.1 hbracketed
      exact .bracketed hbody
    · rename_i hnone
      refine .plain (fun _ body after hbody hcs ↦ ?_) (by decide)
        fun hslash ↦ absurd hslash (by decide)
      rw [hcs, hbody.bracketedText?] at hnone
      cases hnone
  · exact .special
  · rename_i hquestion
    refine .opening fun hhead ↦ ?_
    obtain ⟨rest, rfl⟩ := List.head?_eq_some_iff.1 hhead
    exact hquestion rest rfl
  · rename_i d rest
    split
    · rename_i hd
      obtain ⟨digits, last, hspan⟩ : ∃ digits last, rest.span isAsciiDigit = (digits, last) :=
        ⟨_, _, rfl⟩
      obtain ⟨rfl, hall, hlast, -⟩ := span_takes hspan
      rw [← List.cons_append, span_append (List.forall_mem_cons.2 ⟨hd.1, hall⟩) hlast]
      exact .reference hd hall hlast
    · rename_i hd
      split
      · subst ‹d = '\n'›
        exact .plain (fun hbracket ↦ absurd hbracket (by decide)) (by decide) fun _ ↦ rfl
      · exact .escape hd ‹_›
  · rename_i hbracket hopening _ hslash
    refine .plain (fun hc ↦ absurd hc hbracket) hopening fun hc ↦ ?_
    cases cs with
    | nil => rfl
    | cons d cs => exact absurd rfl (hslash d cs hc)

theorem Reads.tokensFrom_eq (h : Reads cs ts) {fuel : Nat} (hfuel : cs.length ≤ fuel) :
    tokensFrom fuel cs = ts := by
  induction h generalizing fuel with
  | nil => cases fuel <;> rfl
  | @cons cs rest t ts hstarts _ ih =>
    cases cs with
    | nil => cases hstarts
    | cons c cs =>
      obtain ⟨fuel, rfl⟩ : ∃ k, fuel = k + 1 := ⟨fuel - 1, by simp at hfuel; omega⟩
      have hfirst := firstToken_eq hstarts
      have hlength := firstToken_length c cs
      rw [hfirst] at hlength
      rw [List.length_cons] at hfuel
      rw [tokensFrom, hfirst]
      exact congrArg (t :: ·) (ih (Nat.le_trans hlength (Nat.le_of_succ_le_succ hfuel)))

theorem reads_tokensFrom {fuel : Nat} (hfuel : cs.length ≤ fuel) :
    Reads cs (tokensFrom fuel cs) := by
  induction fuel generalizing cs with
  | zero =>
    obtain rfl := List.eq_nil_of_length_eq_zero (Nat.le_zero.1 hfuel)
    exact .nil
  | succ fuel ih =>
    cases cs with
    | nil => exact .nil
    | cons c cs =>
      have hlength := firstToken_length c cs
      rw [List.length_cons] at hfuel
      exact .cons (startsWith_firstToken c cs) (ih (by omega))

/-- Every pattern can be read, and in one way only. -/
theorem reads_iff : Reads cs ts ↔ ts = tokens cs :=
  ⟨fun h ↦ (h.tokensFrom_eq (Nat.le_refl _)).symm, fun h ↦ h ▸ reads_tokensFrom (Nat.le_refl _)⟩

theorem Reads.flatMap_chars (h : Reads cs ts) : ts.flatMap Token.chars = cs := by
  rw [reads_iff.1 h]
  exact flatMap_tokensFrom (Nat.le_refl _)

end Reading

section Moved

variable {patterns : List String} {pieces later : List (List Token)} {ts : List Token}
  {before offset : Nat}

def Token.raised (offset : Nat) : Token → Token
  | .reference digits => .reference (toString (numeralValue 10 digits + offset)).toList
  | token => token

def moved (offset : Nat) (ts : List Token) : String :=
  "(" ++ String.ofList ((ts.map (Token.raised offset)).flatMap Token.chars) ++ ")"

/-- By how much the references of pattern number `i` move: by the groups around it and around the
patterns before it, and by those that the latter open. -/
def offsetAt (pieces : List (List Token)) (i : Nat) : Nat :=
  i + 1 + ((pieces.take i).map openings).sum

/-- The patterns in groups of their own, their references moved. -/
def rewritten (pieces : List (List Token)) : List String :=
  pieces.mapIdx fun i ts ↦ moved (offsetAt pieces i) ts

/-- The numbers that are moved can be read and added up. -/
def Fitting (pieces : List (List Token)) : Prop :=
  ∀ (i : Nat) (ts : List Token) (digits : List Char), pieces[i]? = some ts →
    .reference digits ∈ ts → numeralValue 10 digits + offsetAt pieces i ≤ greatest64

theorem flatMap_shifted_eq
    (h : ∀ digits, .reference digits ∈ ts → numeralValue 10 digits ≤ greatest64) :
    ts.flatMap (Token.shifted offset) = (ts.map (Token.raised offset)).flatMap Token.chars := by
  rw [List.flatMap_map]
  refine List.flatMap_congr fun t ht ↦ ?_
  cases t with
  | reference digits =>
    rw [Token.shifted, if_pos (h digits ht)]
    rfl
  | bracketed | opening | special | escape | plain => rfl

/-- The first pattern moves those behind it by what it opens and by the group around it. -/
theorem offsetAt_cons (ts : List Token) (pieces : List (List Token)) (i : Nat) :
    offsetAt (ts :: pieces) (i + 1) = 1 + openings ts + offsetAt pieces i := by
  rw [offsetAt, offsetAt, List.take_succ_cons, List.map_cons, List.sum_cons]
  omega

theorem wrapped_eq (hreads : List.Forall₂ (fun p ts ↦ Reads p.toList ts) patterns pieces)
    (hfits : ∀ ts ∈ pieces, ∀ digits, .reference digits ∈ ts →
      numeralValue 10 digits ≤ greatest64) :
    wrapped before patterns = pieces.mapIdx fun i ts ↦ moved (before + offsetAt pieces i) ts := by
  induction hreads generalizing before with
  | nil => rfl
  | @cons pattern ts patterns pieces hpattern _ ih =>
    obtain ⟨hfirst, hothers⟩ := List.forall_mem_cons.1 hfits
    rw [wrapped, ← reads_iff.1 hpattern, flatMap_shifted_eq hfirst, ih hothers, List.mapIdx_cons]
    simp only [offsetAt_cons, ← Nat.add_assoc]
    rfl

theorem wrapped_append (before : Nat) (patterns more : List String) : ∃ texts,
    wrapped before (patterns ++ more) = wrapped before patterns ++ texts ∧
      texts.length = more.length := by
  induction patterns generalizing before with
  | nil =>
    refine ⟨_, rfl, ?_⟩
    induction more generalizing before with
    | nil => rfl
    | cons pattern more ih => exact congrArg Nat.succ (ih _)
  | cons pattern patterns ih =>
    obtain ⟨texts, hwrapped, hlength⟩ := ih (before + 1 + openings (tokens pattern.toList))
    exact ⟨texts, congrArg (_ :: ·) hwrapped, hlength⟩

theorem moved_of_unnumbered {cs : List Char} (hreads : Reads cs ts)
    (h : ∀ digits, .reference digits ∉ ts) : moved offset ts = "(" ++ String.ofList cs ++ ")" := by
  have hsame : ts.map (Token.raised offset) = ts := by
    refine (List.map_congr_left fun t ht ↦ ?_).trans (List.map_id ts)
    cases t with
    | reference digits => exact absurd ht (h digits)
    | bracketed | opening | special | escape | plain => rfl
  rw [moved, hsame, hreads.flatMap_chars]

/-- Joined patterns are the patterns, each in a group, with nothing changed but the numbers of
references: each grows by the place of its pattern, counted from 1, and by the groups that the
patterns before it open. What comes after a pattern does not matter to it, and a pattern without
such references is copied. There is just one way to read a pattern. -/
theorem rewriteReferences_moves
    (hreads : List.Forall₂ (fun p ts ↦ Reads p.toList ts) patterns pieces)
    (hfits : Fitting pieces) (separator : String) :
    (∀ cs, ∃! ts, Reads cs ts) ∧
    rewriteReferences patterns separator = separator.intercalate (rewritten pieces) ∧
    (∀ (i : Nat) pattern ts, patterns[i]? = some pattern → pieces[i]? = some ts →
      pattern = String.ofList (ts.flatMap Token.chars) ∧
      (rewritten pieces)[i]? = some (moved (offsetAt pieces i) ts) ∧
      ((∀ digits, .reference digits ∉ ts) →
        (rewritten pieces)[i]? = some ("(" ++ pattern ++ ")"))) ∧
    ∀ more, ∃ texts, texts.length = more.length ∧ rewriteReferences (patterns ++ more) separator =
      separator.intercalate (rewritten pieces ++ texts) := by
  have hsmall : ∀ ts ∈ pieces, ∀ digits, .reference digits ∈ ts →
      numeralValue 10 digits ≤ greatest64 := fun ts hts digits hdigits ↦ by
    obtain ⟨i, hi⟩ := List.getElem?_of_mem hts
    exact Nat.le_of_add_right_le (hfits i ts digits hi hdigits)
  have hwrapped : wrapped 0 patterns = rewritten pieces := by
    rw [wrapped_eq hreads hsmall, rewritten]
    simp only [Nat.zero_add]
  refine ⟨fun cs ↦ ⟨tokens cs, reads_iff.2 rfl, fun _ ↦ reads_iff.1⟩, congrArg _ hwrapped,
    fun i pattern ts hpattern hts ↦ ?_, fun more ↦ ?_⟩
  · have hread : Reads pattern.toList ts := by
      obtain ⟨hi, rfl⟩ := List.getElem?_eq_some_iff.1 hpattern
      obtain ⟨hi', rfl⟩ := List.getElem?_eq_some_iff.1 hts
      exact (List.forall₂_iff_get.1 hreads).2 i hi hi'
    have hmoved : (rewritten pieces)[i]? = some (moved (offsetAt pieces i) ts) := by
      rw [rewritten, List.getElem?_mapIdx, hts, Option.map_some]
    refine ⟨?_, hmoved, fun hnone ↦ ?_⟩
    · rw [hread.flatMap_chars, String.ofList_toList]
    · rw [hmoved, moved_of_unnumbered hread hnone, String.ofList_toList]
  · obtain ⟨texts, happend, hlength⟩ := wrapped_append 0 patterns more
    exact ⟨texts, hlength, by rw [rewriteReferences, happend, hwrapped]⟩

/-- A class with a parenthesis and an escaped one count for nothing; a backslash that is escaped
makes no reference. -/
theorem classAndEscapes_moves :
    List.Forall₂ (fun (p : String) ts ↦ Reads p.toList ts) ["(a)\\1[(\\]]\\(", "\\\\1(?:b)(c)\\12"]
      [[.opening, .plain 'a', .plain '\x29', .reference ['1'],
          .bracketed ['[', '\x28', '\\', ']', ']'], .escape '\x28'],
        [.escape '\\', .plain '1', .special, .plain ':', .plain 'b', .plain '\x29', .opening,
          .plain 'c', .plain '\x29', .reference ['1', '2']]] ∧
    rewriteReferences ["(a)\\1[(\\]]\\(", "\\\\1(?:b)(c)\\12"] "|" =
      "((a)\\2[(\\]]\\()|(\\\\1(?:b)(c)\\15)" := by
  have hreads : List.Forall₂ (fun (p : String) ts ↦ Reads p.toList ts)
      ["(a)\\1[(\\]]\\(", "\\\\1(?:b)(c)\\12"]
      [[.opening, .plain 'a', .plain '\x29', .reference ['1'],
          .bracketed ['[', '\x28', '\\', ']', ']'], .escape '\x28'],
        [.escape '\\', .plain '1', .special, .plain ':', .plain 'b', .plain '\x29', .opening,
          .plain 'c', .plain '\x29', .reference ['1', '2']]] :=
    .cons (reads_iff.2 (by cbv)) (.cons (reads_iff.2 (by cbv)) .nil)
  refine ⟨hreads, ?_⟩
  rw [(rewriteReferences_moves hreads (fun i ts digits hts hdigits ↦ ?_) "|").2.1]
  · cbv
  · rcases i with _ | _ | i
    · cases hts
      obtain rfl : digits = ['1'] := by simpa using hdigits
      decide
    · cases hts
      obtain rfl : digits = ['1', '2'] := by simpa using hdigits
      decide
    · cases hts

end Moved

end SyntaxHighlight.Pattern
