import SyntaxHighlight.Proofs.Pattern.Rewriting
import SyntaxHighlight.Proofs.Regex.Concatenation
import SyntaxHighlight.Proofs.Regex.Reading.Whole

/-!
Escaped texts. Whatever characters a text has, its escaped form is a source that is read as just
these characters, one after another: it matches the text itself and nothing else.
-/
namespace SyntaxHighlight.Regex

/-- The tree of a text, character by character. -/
def literal : List Char → Node
  | [] => .empty
  | c :: cs => (Node.set (.singleton c)).cat (literal cs)

theorem startsRun_literal (cs : List Char) : (literal cs).startsRun = false := by
  cases cs with
  | nil => rfl
  | cons c cs => exact Node.startsRun_cat (a := .set (.singleton c)) (by simp) _

theorem any_literal {p : Node → Bool} (hp : ∀ node : Node, node.isCommon → p node = false)
    (cs : List Char) : (literal cs).subterms.any p = false := by
  induction cs with
  | nil => simp [literal, Node.subterms, hp .empty rfl]
  | cons c cs ih =>
    rw [literal, any_cat hp, ih, Bool.or_false]
    simp [Node.subterms, hp (.set (.singleton c)) rfl]

theorem contains_singleton (c d : Char) : (CharSet.singleton c).contains d = true ↔ d = c := by
  simp only [CharSet.singleton, CharSet.contains, Bool.and_eq_true, decide_eq_true_eq]
  exact ⟨fun h ↦ Char.le_antisymm h.2 h.1, fun h ↦ h ▸ ⟨Char.le_refl d, Char.le_refl d⟩⟩

/-- The tree of a text goes past the text where that comes next, and nowhere else. -/
theorem run_literal (subject : Subject) (callee : GroupRef → Matcher) (cs : List Char) (s : State)
    (k : State → Option State) :
    run subject callee (literal cs) s k =
      if cs <+: subject.text.chars.toList.drop s.pos then k { s with pos := s.pos + cs.length }
      else none := by
  induction cs generalizing s with
  | nil => rw [if_pos List.nil_prefix]; rfl
  | cons c cs ih =>
    rw [literal, run_cat (startsRun_literal cs)]
    simp only [run, Text.get?, ← Array.getElem?_toList]
    cases hget : subject.text.chars.toList[s.pos]? with
    | none =>
      rw [List.drop_eq_nil_of_le (List.getElem?_eq_none_iff.1 hget), if_neg (by simp)]
    | some d =>
      obtain ⟨hlt, rfl⟩ := List.getElem?_eq_some_iff.1 hget
      simp only [List.drop_eq_getElem_cons hlt, List.cons_prefix_cons, contains_singleton, ih,
        List.length_cons, eq_comm (a := c)]
      by_cases heq : subject.text.chars.toList[s.pos] = c
      · simp only [heq, true_and, if_true, Nat.add_assoc, Nat.add_comm 1]
      · simp only [heq, false_and, if_false]

end SyntaxHighlight.Regex

namespace SyntaxHighlight.Pattern

open Regex Unicode

section Reading

variable {c : Char} {cs : List Char} {s : Source} {fuel : Nat}

theorem escapeChars_of_special (h : isSpecial c = true) (cs : List Char) :
    escapeChars (c :: cs) = '\\' :: c :: escapeChars cs := by
  simp [escapeChars, h]

theorem escapeChars_of_plain (h : isSpecial c = false) (cs : List Char) :
    escapeChars (c :: cs) = c :: escapeChars cs := by
  simp [escapeChars, h]

/-- An escaped text starts with a backslash or with a character that means itself. -/
theorem head?_escapeChars (h : (escapeChars cs).head? = some c) : c = '\\' ∨ isSpecial c = false := by
  cases cs with
  | nil => cases h
  | cons d cs =>
    cases hd : isSpecial d with
    | true =>
      rw [escapeChars_of_special hd] at h
      exact .inl (Option.some.inj h).symm
    | false =>
      rw [escapeChars_of_plain hd] at h
      cases h
      exact .inr hd

theorem ne_of_special {d : Char} (h : isSpecial c = true) (hd : isSpecial d = false) : c ≠ d := by
  rintro rfl
  simp [h] at hd

theorem isSyntax_of_plain (h : isSpecial c = false) : isSyntax c = false := by
  simp only [isSpecial, isSyntax, List.contains_eq_mem, decide_eq_false_iff_not, List.mem_cons,
    List.not_mem_nil, or_false, not_or] at h ⊢
  tauto

theorem quantifier?_of_plain (h : isSpecial c = false) : quantifier? (c :: cs) = .ok none := by
  have hne {d : Char} (hd : isSpecial d = true) : c ≠ d := (ne_of_special hd h).symm
  rw [quantifier?, signQuantifier?]
  · rfl
  · exact hne rfl
  · exact hne rfl
  · exact hne rfl
  · exact hne rfl

theorem quantified_escaped (node : Node) (cs : List Char) (fuel : Nat) :
    skipIgnored false fuel (escapeChars cs) = .ok (escapeChars cs) ∧
      quantified false fuel node (escapeChars cs) = .ok (node, escapeChars cs) := by
  have hskip (fuel : Nat) : skipIgnored false fuel (escapeChars cs) = .ok (escapeChars cs) := by
    refine skipIgnored_self fuel (fun more heq ↦ ?_) (by cases escapeChars cs <;> rfl)
    have hhead : (escapeChars cs).head? = some '\x28' := congrArg List.head? heq
    obtain hc | hc := head?_escapeChars hhead <;> cases hc
  have hquantifier : quantifier? (escapeChars cs) = .ok none := by
    cases hcs : escapeChars cs with
    | nil => rfl
    | cons c more =>
      have hhead : (escapeChars cs).head? = some c := congrArg List.head? hcs
      obtain rfl | hc := head?_escapeChars hhead
      · rfl
      · exact quantifier?_of_plain hc
  refine ⟨hskip fuel, ?_⟩
  cases fuel with
  | zero => rfl
  | succ fuel => exact bind_eq_ok.2 ⟨_, hskip _, bind_eq_ok.2 ⟨none, hquantifier, rfl⟩⟩

/-- Behind a backslash, the character starts no class, place, reference or number, nor does it spell
another one. -/
structure SpellsItself (c : Char) : Prop where
  letter : escapedLetter? c = none
  delimited : ∀ o s cs, delimitedNode? o s (c :: cs) = .ok none
  number : ∀ cs, escapedNumber? (c :: cs) = none
  point : ∀ cs, codePointEscape? (c :: cs) = .ok none
  byte : ∀ cs, byteEscape? (c :: cs) = .ok none
  char : escapedChar c = c
  digit : isAsciiDigit c = false

theorem spellsItself_of_special (h : isSpecial c = true) : SpellsItself c := by
  simp only [isSpecial, List.contains_eq_mem, decide_eq_true_eq, List.mem_cons, List.not_mem_nil,
    or_false] at h
  rcases h with rfl | rfl | rfl | rfl | rfl | rfl | rfl | rfl | rfl | rfl | rfl | rfl | rfl | rfl |
    rfl | rfl <;>
    exact ⟨rfl, fun _ _ _ ↦ rfl, fun _ ↦ rfl, fun _ ↦ rfl, fun _ ↦ rfl, rfl, rfl⟩

theorem escapedLiteral_special (h : isSpecial c = true) (cs : List Char) :
    escapedLiteral (c :: cs) = .ok (c, cs) := by
  have hitself := spellsItself_of_special h
  have htyped : typedChar (c :: cs).length (c :: cs) = .ok (c, cs) := by
    rw [List.length_cons, typedChar, hitself.char]
    · rfl
    · intro heq
      cases heq
    · exact fun _ _ heq ↦ ne_of_special h rfl heq
    · exact fun _ _ heq ↦ ne_of_special h rfl heq
    · exact fun _ _ heq ↦ ne_of_special h rfl heq
  have hspelled : spelledChar (c :: cs) = .ok (c, cs) := by
    rw [spelledChar, hitself.byte]
    exact htyped
  rw [escapedLiteral, hitself.point]
  · exact hspelled
  · exact fun _ heq ↦ ne_of_special h rfl (List.cons.inj heq).1

theorem escapeNode_special (h : isSpecial c = true) (o : Options) (s : Source) (cs : List Char) :
    escapeNode o s (c :: cs) = .ok (charNode o c, cs) := by
  have hitself := spellsItself_of_special h
  have hproperty : escapedProperty? (c :: cs) = .ok none := by
    rw [escapedProperty?.eq_def]
    split
    · rename_i heq
      cases heq
      exact if_neg (not_or.2 ⟨ne_of_special h rfl, ne_of_special h rfl⟩)
    · rfl
  have hnumber : numberedNode? o s (c :: cs) = none := by
    rw [numberedNode?.eq_def, hitself.number]
  rw [escapeNode, hitself.letter, hitself.delimited, hproperty, hnumber, escapedLiteral_special h]
  rfl

theorem noting_special (h : isSpecial c = true) (s : Source) (cs : List Char) :
    s.noting (c :: cs) = s := by
  have hwritten : writtenNumber? (c :: cs) = none := by
    rw [writtenNumber?, (spellsItself_of_special h).number]
    · rfl
    · exact fun _ heq ↦ ne_of_special h rfl (List.cons.inj heq).1
    · exact fun _ heq ↦ ne_of_special h rfl (List.cons.inj heq).1
  rw [Source.noting, hwritten]

/-- An escaped text is read to its end, as the tree of the text. -/
theorem branch_escaped (hrest : s.rest = escapeChars cs) (hfuel : 2 * cs.length < fuel) :
    branch fuel {} s = .ok (literal cs, { s with rest := [] }) := by
  induction cs generalizing s fuel with
  | nil =>
    obtain ⟨fuel, rfl⟩ : ∃ k, fuel = k + 1 := ⟨fuel - 1, by omega⟩
    refine branch_eq_ok.2 ⟨[], ?_, .stop trivial⟩
    rw [hrest]
    rfl
  | cons c cs ih =>
    rw [List.length_cons] at hfuel
    obtain ⟨fuel, rfl⟩ : ∃ k, fuel = k + 2 := ⟨fuel - 2, by omega⟩
    have hnext (after : Source) (hafter : after.rest = escapeChars cs) :
        next (fuel + 1) {} (.set (.singleton c)) after =
          .ok (literal (c :: cs), { after with rest := [] }) := by
      refine next_eq_ok.2 ⟨_, after.rest, literal cs, ?_, ih hafter (by omega), rfl⟩
      rw [hafter]
      exact (quantified_escaped _ cs _).2
    have hskip : skipIgnored false s.rest.length s.rest = .ok s.rest := by
      rw [hrest]
      exact (quantified_escaped .empty (c :: cs) _).1
    refine branch_eq_ok.2 ⟨s.rest, hskip, ?_⟩
    cases hc : isSpecial c with
    | true =>
      rw [escapeChars_of_special hc] at hrest
      refine .atom (.escape hrest (escapeNode_special hc {} s _)) ?_
      rw [noting_special hc]
      exact hnext _ rfl
    | false =>
      rw [escapeChars_of_plain hc] at hrest
      exact .atom (.char hrest (isSyntax_of_plain hc) (quantifier?_of_plain hc)) (hnext _ rfl)

/-- In pieces, an escaped text is its characters, some of them behind a backslash. -/
theorem reads_escapeChars (cs : List Char) : Reads (escapeChars cs)
    (cs.map fun c ↦ if isSpecial c then .escape c else .plain c) := by
  induction cs with
  | nil => exact .nil
  | cons c cs ih =>
    rw [List.map_cons]
    cases hc : isSpecial c with
    | true =>
      have hnumber : ¬ StartsNumber c := by
        rintro ⟨hdigit, -⟩
        rw [(spellsItself_of_special hc).digit] at hdigit
        cases hdigit
      rw [escapeChars_of_special hc]
      exact .cons (.escape hnumber (ne_of_special hc rfl)) ih
    | false =>
      have hne {d : Char} (hd : isSpecial d = true) : c ≠ d := (ne_of_special hd hc).symm
      rw [escapeChars_of_plain hc]
      exact .cons (.plain (fun h ↦ absurd h (hne rfl)) (hne rfl) fun h ↦ absurd h (hne rfl)) ih

end Reading

theorem length_escapeChars (cs : List Char) : cs.length ≤ (escapeChars cs).length := by
  induction cs with
  | nil => exact Nat.le_refl _
  | cons c cs ih =>
    cases hc : isSpecial c with
    | true =>
      rw [escapeChars_of_special hc]
      simp only [List.length_cons]
      omega
    | false =>
      rw [escapeChars_of_plain hc]
      exact Nat.succ_le_succ ih

/-- An escaped text is an expression without groups, the tree of the text. -/
theorem compile_escape (v : String) :
    compile (escape v) {} = .ok ⟨escape v, literal v.toList, 0, []⟩ := by
  have hchars : (escape v).toList = escapeChars v.toList := String.toList_ofList
  have hbranch : branch (3 * (escape v).toList.length + 2) {} { rest := (escape v).toList } =
      .ok (literal v.toList, { rest := [] }) := by
    have hlength := length_escapeChars v.toList
    rw [hchars]
    exact branch_escaped rfl (by omega)
  have hread : alternatives (3 * (escape v).toList.length + 3) {} { rest := (escape v).toList } =
      .ok (literal v.toList, { rest := [] }) :=
    alternatives_eq_ok.2 ⟨_, _, hbranch, .inl ⟨nofun, rfl, rfl⟩⟩
  have hchecked : Checked (literal v.toList) 0 :=
    ⟨any_literal (isSparse_refersBeyond 0).common _,
      any_literal isSparse_capturesInNegation.common _⟩
  have hcallable : callableGroups (literal v.toList) { rest := [] } = .ok [] :=
    callableGroups_eq_nil hchecked (any_literal isSparse_isCall.common _)
  have hcompile : Regex.compile (escape v) {} = .ok ⟨escape v, literal v.toList, 0, []⟩ :=
    compile_eq_ok.2 ⟨_, _, [], parseTree_of_alternatives hread rfl, hcallable, rfl⟩
  rw [compile, hcompile]

theorem prefix_drop_iff (v : String) (text : Text) (pos : Nat) :
    v.toList <+: text.chars.toList.drop pos ↔ ∃ more, text.rest pos = v ++ more := by
  have hrest : (text.rest pos).toList = text.chars.toList.drop pos := by
    simp [Text.rest, Text.slice, Text.size]
  rw [← hrest]
  constructor
  · rintro ⟨more, hmore⟩
    exact ⟨String.ofList more, String.toList_inj.1 (by simp [hmore])⟩
  · rintro ⟨more, hmore⟩
    exact ⟨more.toList, by simp [hmore]⟩

/-- Joined, escaped texts stay as they are, each in a group. -/
theorem wrapped_escape (before : Nat) (texts : List String) :
    wrapped before (texts.map escape) = texts.map fun text ↦ "(" ++ escape text ++ ")" := by
  induction texts generalizing before with
  | nil => rfl
  | cons text texts ih =>
    have hchars : (escape text).toList = escapeChars text.toList := String.toList_ofList
    have hkept : (tokens (escape text).toList).flatMap (Token.shifted (before + 1)) =
        escapeChars text.toList := by
      rw [hchars, ← reads_iff.1 (reads_escapeChars text.toList), List.flatMap_map, escapeChars]
      refine List.flatMap_congr fun c _ ↦ ?_
      cases isSpecial c <;> rfl
    rw [List.map_cons, List.map_cons, wrapped, ih, hkept]
    rfl

/-- A text that is escaped is a source without groups. It matches where the text comes next, just the
text, and nowhere else; and when sources are joined, nothing in it is taken for a reference. -/
theorem escape_matches_itself (v : String) (texts : List String) (separator : String) :
    (∃ e, compile (escape v) {} = .ok e ∧ e.groupCount = 0 ∧
      (∀ text pos, e.matchesAt text pos = true ↔
        pos ≤ text.size ∧ ∃ more, text.rest pos = v ++ more) ∧
      ∀ text searchStart pos spans, e.matchAt? text searchStart pos = some spans ↔
        (∃ more, text.rest pos = v ++ more) ∧ spans = [some (pos, pos + v.length)]) ∧
    rewriteReferences (texts.map escape) separator =
      separator.intercalate (texts.map fun text ↦ "(" ++ escape text ++ ")") := by
  refine ⟨⟨_, compile_escape v, rfl, fun text pos ↦ ?_, fun text searchStart pos spans ↦ ?_⟩,
    congrArg _ (wrapped_escape 0 texts)⟩
  · rw [Expr.matchesAt, Expr.finalState?, run_literal, ← prefix_drop_iff]
    split <;> simp_all
  · have hspans : Expr.spans ⟨escape v, literal v.toList, 0, []⟩ pos
        { pos := pos + v.toList.length } = [some (pos, pos + v.length)] := by
      simp [Expr.spans, String.length_toList]
    rw [Expr.matchAt?, Expr.finalState?, run_literal, ← prefix_drop_iff]
    split
    · rename_i hnext
      simp only [Option.map_some, Option.some.injEq, hnext, true_and, hspans]
      exact eq_comm
    · rename_i hnext
      simp only [Option.map_none, reduceCtorEq, hnext, false_and]

end SyntaxHighlight.Pattern
