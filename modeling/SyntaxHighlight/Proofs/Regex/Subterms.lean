import SyntaxHighlight.Proofs.Regex.Raised

/-!
What a tree has somewhere within it. Of groups, references, calls and the like a tree has what its
parts have, however the reader joins them.
-/
namespace SyntaxHighlight.Regex

namespace Node

/-- Whether a node neither is about groups nor resets the match, what is within it aside. -/
def isCommon : Node → Bool
  | .group .. | .look .. | .backref .. | .call _ | .keep => false
  | _ => true

def isCall : Node → Bool
  | .call _ => true
  | _ => false

def isGroupBeyond (count : Nat) : Node → Bool
  | .group n _ => count < n
  | _ => false

end Node

section Parts

variable {p : Node → Bool} {n : Nat} {a b : Node}

theorem any_group_eq_false (hp : p (.group n a) = false) (ha : a.subterms.any p = false) :
    (Node.group n a).subterms.any p = false := by
  rw [Node.subterms, List.any_cons, hp, ha]
  rfl

theorem any_alt_eq_false (hp : p (.alt a b) = false) (ha : a.subterms.any p = false)
    (hb : b.subterms.any p = false) : (Node.alt a b).subterms.any p = false := by
  rw [Node.subterms, List.any_cons, List.any_append, hp, ha, hb]
  rfl

end Parts

section Joined

variable {p : Node → Bool} {a b : Node} (hp : ∀ node : Node, node.isCommon → p node = false)

include hp

theorem any_cat :
    (a.cat b).subterms.any p = (a.subterms.any p || b.subterms.any p) := by
  have hempty : p .empty = false := hp _ rfl
  have hfolded (text : List Char) : p (.folded text) = false := hp _ rfl
  have hseq (a b : Node) : p (.seq a b) = false := hp _ rfl
  fun_induction Node.cat a b <;>
    simp_all [Node.subterms, Bool.or_assoc]

theorem any_apply (q : Quantifier) :
    (q.apply a).subterms.any p = a.subterms.any p := by
  have hrepetition (low : Nat) (high : Option Nat) (greedy : Bool) :
      p (.repetition a low high greedy) = false := hp _ rfl
  have hatomic (body : Node) : p (.atomic body) = false := hp _ rfl
  rw [Quantifier.apply]
  split <;> split <;> simp [Node.subterms, hrepetition, hatomic]

theorem any_charNode (o : Options) (c : Char) : (charNode o c).subterms.any p = false := by
  have hset (set : CharSet) : p (.set set) = false := hp _ rfl
  have hfolded (text : List Char) : p (.folded text) = false := hp _ rfl
  rw [charNode]
  split <;> simp [Node.subterms, hset, hfolded]

theorem any_classNode (o : Options) (b : Bracketed) : (classNode o b).subterms.any p = false := by
  have hset (set : CharSet) : p (.set set) = false := hp _ rfl
  have halt (a b : Node) : p (.alt a b) = false := hp _ rfl
  have hfolded (texts : List (List Char)) : p (.foldedAny texts) = false := hp _ rfl
  rw [classNode]
  dsimp only
  split
  · simp [Node.subterms, hset]
  · split
    · simp [Node.subterms, hset]
    · split <;> simp [Node.subterms, hset, halt, hfolded]

end Joined

theorem isGroupBeyond_of_isCommon (count : Nat) (node : Node) (h : node.isCommon) :
    node.isGroupBeyond count = false := by
  cases node <;> first | rfl | cases h

/-- A tree that calls no group and resets no match is plain, up to its greatest group number. -/
theorem isPlain_of_subterms {a : Node} {count : Nat}
    (hgroups : a.subterms.any (Node.isGroupBeyond count) = false)
    (hcalls : a.subterms.any Node.isCall = false) (hkeep : .keep ∉ a.subterms) :
    a.isPlain count := by
  induction a with
  | seq a b iha ihb | alt a b iha ihb =>
    simp only [Node.subterms, List.any_cons, List.any_append, Bool.or_eq_false_iff, List.mem_cons,
      List.mem_append, not_or] at hgroups hcalls hkeep
    simp only [Node.isPlain, Bool.and_eq_true]
    exact ⟨iha hgroups.2.1 hcalls.2.1 hkeep.2.1, ihb hgroups.2.2 hcalls.2.2 hkeep.2.2⟩
  | group n body ih =>
    simp only [Node.subterms, List.any_cons, Bool.or_eq_false_iff, List.mem_cons, not_or]
      at hgroups hcalls hkeep
    have hle : n ≤ count := Nat.le_of_not_lt (of_decide_eq_false hgroups.1)
    simp only [Node.isPlain, Bool.and_eq_true]
    exact ⟨decide_eq_true hle, ih hgroups.2 hcalls.2 hkeep.2⟩
  | atomic body ih | repetition body _ _ _ ih | look _ _ body ih =>
    simp only [Node.subterms, List.any_cons, Bool.or_eq_false_iff, List.mem_cons, not_or]
      at hgroups hcalls hkeep
    exact ih hgroups.2 hcalls.2 hkeep.2
  | call => cases hcalls
  | keep => exact absurd (List.mem_singleton_self _) hkeep
  | _ => rfl

/-- A plain tree that does not ask where the search began matches the same wherever that was. -/
theorem run_searchStart {a : Node} {count : Nat} (hplain : a.isPlain count)
    (hstart : .anchor .searchStart ∉ a.subterms) (text : Text) (p p' : Nat)
    (callee callee' : GroupRef → Matcher) :
    run ⟨text, p⟩ callee a = run ⟨text, p'⟩ callee' a := by
  induction a with
  | seq a b iha ihb | alt a b iha ihb =>
    simp only [Node.subterms, List.mem_cons, List.mem_append, not_or] at hstart
    simp only [Node.isPlain, Bool.and_eq_true] at hplain
    funext s k
    rw [run, run, iha hplain.1 hstart.2.1, ihb hplain.2 hstart.2.2]
  | group n body ih =>
    simp only [Node.subterms, List.mem_cons, not_or] at hstart
    simp only [Node.isPlain, Bool.and_eq_true] at hplain
    funext s k
    rw [run, run, ih hplain.2 hstart.2]
  | atomic body ih | repetition body _ _ _ ih =>
    simp only [Node.subterms, List.mem_cons, not_or] at hstart
    funext s k
    rw [run, run, ih hplain hstart.2]
  | look direction negated body ih =>
    simp only [Node.subterms, List.mem_cons, not_or] at hstart
    funext s k
    cases direction <;> rw [run, run, ih hplain hstart.2]
  | anchor a =>
    funext s k
    cases a with
    | searchStart => exact absurd (List.mem_singleton_self _) hstart
    | _ => rfl
  | call | keep => cases hplain
  | _ => rfl

theorem Expr.matchAt?_searchStart {e : Expr} (hplain : e.root.isPlain e.groupCount)
    (hstart : .anchor .searchStart ∉ e.root.subterms) (text : Text) (p p' start : Nat) :
    e.matchAt? text p start = e.matchAt? text p' start :=
  congrArg (fun matcher : Matcher ↦ (matcher { pos := start } some).map (e.spans start))
    (run_searchStart hplain hstart text p p' _ _)

end SyntaxHighlight.Regex
