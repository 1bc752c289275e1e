import SyntaxHighlight.Proofs.Pattern.Reference
import SyntaxHighlight.Proofs.Regex.Reading.Barred

/-!
Sources that can be parts of a sequence. Wherever one stands in a group of its own, the group ends
with it, and has the groups in it that it has by itself.
-/
namespace SyntaxHighlight.Pattern

open Regex Unicode

/-- A source that is an expression, calls no group, does not reset the match, and has neither
comments nor options. -/
structure IsPart (source : String) (e : Expr) : Prop where
  compiles : ∃ flags, Regex.compile source flags = .ok e
  calls : e.root.subterms.any Node.isCall = false
  keeps : .keep ∉ e.root.subterms
  inline : skim {} .plain source.toList ≠ .inline

section Shifting

variable {offset : Nat} {tail cs : List Char}

/-- Numbers after backslashes are all that is changed of a source whose references are moved. -/
theorem respelled_tokensFrom {fuel : Nat} (hoffset : 0 < offset) (h : cs.length ≤ fuel) :
    Respelled tail (cs ++ '\x29' :: tail)
      ((tokensFrom fuel cs).flatMap (Token.shifted offset) ++ '\x29' :: tail) := by
  induction fuel generalizing cs with
  | zero =>
    obtain rfl := List.eq_nil_of_length_eq_zero (Nat.le_zero.1 h)
    exact .tail
  | succ fuel ih =>
    cases cs with
    | nil => exact .tail
    | cons c cs =>
      have hlength := firstToken_length c cs
      rw [List.length_cons] at h
      obtain ⟨happend, -, hdigits⟩ := firstToken_append c cs
      rw [tokensFrom]
      generalize firstToken c cs = first at happend hdigits hlength
      obtain ⟨token, rest⟩ := first
      dsimp only at happend hdigits hlength ⊢
      have hrest : Respelled tail (rest ++ '\x29' :: tail) _ := ih (by omega)
      rw [happend, List.flatMap_cons, List.append_assoc, List.append_assoc]
      cases token with
      | reference digits =>
        obtain ⟨hspells, -⟩ := hdigits digits rfl
        have hspells' : Spells (toString ((if numeralValue 10 digits ≤ greatest64 then
            numeralValue 10 digits else 0) + offset)).toList _ :=
          spells_toString (Nat.add_pos_right _ hoffset)
        obtain ⟨d, digits, rfl⟩ := hspells.exists_cons
        obtain ⟨d', digits', hdigits'⟩ := hspells'.exists_cons
        rw [Token.shifted, hdigits']
        exact .number hspells.digit (hdigits' ▸ hspells'.digit) hrest
      | bracketed | opening | special | escape | plain => exact hrest.prepend _

end Shifting

namespace IsPart

variable {source : String} {e : Expr}

theorem strays_eq_false (h : IsPart source e) : e.root.strays = false := by
  rw [Node.strays, List.any_eq_false]
  intro x hx hstray
  cases x with
  | keep => exact h.keeps hx
  | call target => exact List.any_eq_false.1 h.calls _ hx rfl
  | _ => cases hstray

theorem reading (h : IsPart source e) : ∃ (flags : Flags) (s : Source),
    alternatives (3 * source.toList.length + 3) { ignoreCase := flags.ignoreCase }
        { rest := source.toList } = .ok (e.root, s) ∧
      s.rest = [] ∧ s.groups = e.groupCount ∧ Checked e.root e.groupCount := by
  obtain ⟨flags, hcompile⟩ := h.compiles
  obtain ⟨root, s, callable, hparse, hcallable, rfl⟩ := compile_eq_ok.1 hcompile
  obtain ⟨hread, hrest⟩ := parseTree_eq_ok.1 hparse
  exact ⟨flags, s, hread, hrest, rfl, checked_of_callableGroups hcallable⟩

/-- The look at a part finds the parenthesis behind it, and the groups in it. -/
theorem skim_closed (h : IsPart source e) (ahead : Nat) (more : List Char) :
    skim { groups := ahead } .plain (source.toList ++ '\x29' :: more) =
      .closed more (e.groupCount + ahead) false := by
  obtain ⟨flags, s, hread, hrest, hgroups, -⟩ := h.reading
  obtain ⟨htraces, -⟩ : Traces 0 0 false (false || e.root.strays) _ s ∧ _ :=
    (reading_traced _).1 _ rfl hread h.inline
  have hclosed : skim {} .plain (source.toList ++ '\x29' :: more) =
      .closed more e.groupCount false := by
    have hlook := htraces ('\x29' :: more) (.inr rfl)
    rw [hrest, h.strays_eq_false, List.nil_append, skim_ends rfl rfl] at hlook
    simpa [Source.looked, hgroups] using hlook
  have hbehind := skim_behind ahead {} .plain (source.toList ++ '\x29' :: more)
  rw [hclosed, Skim.behind, Nat.zero_add] at hbehind
  exact hbehind

/-- A part does not start with a sign of repetition. -/
theorem head?_ne (h : IsPart source e) {c : Char} (hc : source.toList.head? = some c) :
    ¬ (c = '?' ∨ c = '*') := by
  obtain ⟨flags, s, hread, -⟩ := h.reading
  obtain ⟨first, mid, hbranch, -⟩ := alternatives_eq_ok.1 hread
  obtain ⟨rest, hskip, hsequence⟩ := branch_eq_ok.1 hbranch
  cases (skipIgnored_calm rfl h.inline).symm.trans hskip
  exact hsequence.head?_ne hc

theorem countGroups (h : IsPart source e) : Pattern.countGroups source = .ok e.groupCount := by
  obtain ⟨flags, s, hread, hrest, hgroups, hchecked⟩ := h.reading
  have hbar : (source ++ "|").toList = source.toList ++ ['\x7c'] := by simp
  have hlength : 3 * source.toList.length + 3 + 2 ≤ 3 * (source ++ "|").toList.length + 3 := by
    rw [hbar, List.length_append, List.length_singleton]
    omega
  have hbarred : Barred { rest := source.toList } { rest := (source ++ "|").toList } :=
    ⟨hbar, rfl, rfl⟩
  have hinline : skim (Source.looked { rest := source.toList } 0 0 false) .plain source.toList ≠
      .inline := h.inline
  obtain ⟨node, t, hread', houtlined, ⟨hne, -⟩ | ⟨-, hend, hcount⟩⟩ :=
    (reading_barred _ _ hlength).1 { ignoreCase := flags.ignoreCase } {} rfl ⟨rfl, rfl, nofun⟩
      hread hinline hbarred
  · exact absurd hrest hne
  · have htotal : t.groups = e.groupCount := hcount.trans hgroups
    have hchecked' : Checked node t.groups := by
      rw [htotal]
      exact ⟨(houtlined.any (isSparse_refersBeyond _)).trans hchecked.references,
        (houtlined.any isSparse_capturesInNegation).trans hchecked.negations⟩
    have hcalls := (houtlined.any isSparse_isCall).trans h.calls
    have hcompile : Regex.compile (source ++ "|") = .ok ⟨source ++ "|", node, t.groups, []⟩ :=
      compile_eq_ok.2 ⟨node, t, [], parseTree_of_alternatives hread' hend,
        callableGroups_eq_nil hchecked' hcalls, rfl⟩
    rw [Pattern.countGroups, Pattern.compile, hcompile, ← htotal]
    rfl

end IsPart

end SyntaxHighlight.Pattern
