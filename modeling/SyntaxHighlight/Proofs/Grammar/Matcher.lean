import SyntaxHighlight.Proofs.Grammar.Arena
import SyntaxHighlight.Proofs.Rule.Resumable

/-! How the modes of a compiled grammar search for their rules. -/
namespace SyntaxHighlight

open Rule

variable {g : Grammar} {scoring : KeywordScoring} {cg : CompiledGrammar}

namespace Compilation

variable {fuel : Nat} {t : Template} {around : List Enclosing} {a a' : Arena}
  (c : Compilation g scoring fuel t around a a')

theorem rules_eq : c.mode.matcher.rules =
    rulesOf c.outer.begins c.contains (terminatorsOf c.p around).2 c.p.illegalSource? :=
  (Resumable.ofRules_eq_ok c.matcher_eq).1

/-- The rules that begin the modes inside come ahead of the end and of illegal text. -/
theorem beginsFirst : BeginsFirst c.mode.matcher.rules := by
  rw [c.rules_eq, rulesOf, List.append_assoc]
  refine beginsFirst_append (fun rule hrule ↦ ?_) fun rule hrule ↦ ?_
  · obtain ⟨id, -, rfl⟩ := List.mem_map.1 hrule
    rfl
  · obtain hrule | hrule := List.mem_append.1 hrule
    · split at hrule
      · cases hrule
      · cases List.mem_singleton.1 hrule
        rfl
    · obtain ⟨source, -, rfl⟩ := Option.map_eq_some_iff.1 (Option.mem_toList.1 hrule)
      rfl

theorem source_of_ends {rule : Rule} (hrule : rule ∈ c.mode.matcher.rules)
    (hkind : rule.kind = .ends) : rule.source = c.mode.terminator := by
  rw [c.rules_eq, rulesOf] at hrule
  obtain hrule | hrule := List.mem_append.1 hrule
  · obtain hrule | hrule := List.mem_append.1 hrule
    · obtain ⟨id, -, rfl⟩ := List.mem_map.1 hrule
      cases hkind
    · split at hrule
      · cases hrule
      · cases List.mem_singleton.1 hrule
        rfl
  · obtain ⟨source, -, rfl⟩ := Option.map_eq_some_iff.1 (Option.mem_toList.1 hrule)
    cases hkind

end Compilation

namespace Grammar

theorem compile_source_of_ends (h : g.compile scoring = .ok cg) (i : Nat) {rule : Rule}
    (hrule : rule ∈ (cg.mode i).matcher.rules) (hkind : rule.kind = .ends) :
    rule.source = (cg.mode i).terminator := by
  have hall := compile_all h (Q := fun m ↦ ∀ rule ∈ m.matcher.rules, rule.kind = .ends →
    rule.source = m.terminator) nofun fun c _ hrule hkind ↦ c.source_of_ends hrule hkind
  exact hall i rule hrule hkind

/-- In every mode of a compiled grammar, begins come first. -/
theorem compile_beginsFirst (h : g.compile scoring = .ok cg) (i : Nat) :
    BeginsFirst (cg.mode i).matcher.rules :=
  compile_all h (Q := fun m ↦ BeginsFirst m.matcher.rules) List.Pairwise.nil
    (fun c ↦ c.beginsFirst) i

theorem compile_matcher (h : g.compile scoring = .ok cg) (i : Nat) :
    (cg.mode i).matcher = default ∨
      Resumable.ofRules (cg.mode i).matcher.rules g.flags = .ok (cg.mode i).matcher := by
  refine compile_all h (Q := fun m ↦ m.matcher = default ∨
    Resumable.ofRules m.matcher.rules g.flags = .ok m.matcher) (.inl rfl) (fun c ↦ .inr ?_) i
  have hmatcher := c.matcher_eq
  rwa [← c.rules_eq] at hmatcher

theorem compile_ofRules (h : g.compile scoring = .ok cg) {i first start following : Nat}
    {text : Text} {m : Rule.Match}
    (hm : (cg.mode i).matcher.next first text start = .ok (some (m, following))) :
    Resumable.ofRules (cg.mode i).matcher.rules g.flags = .ok (cg.mode i).matcher := by
  obtain hdefault | hr := compile_matcher h i
  · rw [hdefault, Resumable.next_default] at hm
    cases hm
  · exact hr

theorem compile_next_of_size_lt (h : g.compile scoring = .ok cg) (i : Nat) {text : Text}
    {start : Nat} (hstart : text.size < start) :
    (cg.mode i).matcher.next 0 text start = .ok none := by
  obtain hdefault | hr := compile_matcher h i
  · rw [hdefault, Resumable.next_default]
  · exact Resumable.next_of_size_lt hr hstart

end Grammar

end SyntaxHighlight
