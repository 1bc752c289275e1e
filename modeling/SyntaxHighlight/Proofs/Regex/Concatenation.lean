import SyntaxHighlight.Proofs.Regex.Reading.Likeness

/-!
Trees one after another. Where a run of folded characters ends the first and starts the second, the
two runs become one; everything else stays as it is.
-/
namespace SyntaxHighlight.Regex

namespace Node

/-- A run of folded characters comes first, to which others may be joined. -/
def startsRun : Node → Bool
  | .folded _ | .seq (.folded _) _ => true
  | _ => false

theorem startsRun_cat {a : Node} (ha : a ≠ .empty) (b : Node) :
    (a.cat b).startsRun = a.startsRun := by
  fun_cases cat a b with
  | case1 => exact absurd rfl ha
  | case2 | case3 | case4 => rfl
  | case5 x y b hb => cases x <;> rfl
  | case6 a b hempty hempty' hfolded hrun hseq =>
    cases a <;> simp_all [startsRun]

theorem cat_empty (a : Node) : a.cat .empty = a := by
  cases a <;> rfl

theorem seq_cat (a b c : Node) : (seq a b).cat c = .seq a (b.cat c) := by
  cases c with
  | empty => rw [cat_empty, cat_empty]
  | _ => rfl

theorem cat_eq_seq {a b : Node} (ha : a ≠ .empty) (hseq : ∀ x y, a ≠ .seq x y) (hb : b ≠ .empty)
    (hrun : a.startsRun → b.startsRun = false) : a.cat b = .seq a b := by
  fun_cases cat a b with
  | case1 => exact absurd rfl ha
  | case2 => exact absurd rfl hb
  | case3 | case4 => cases hrun rfl
  | case5 => exact absurd rfl (hseq _ _)
  | case6 => rfl

theorem folded_cat_cat (xs ys : List Char) (c : Node) :
    (folded xs).cat ((folded ys).cat c) = (folded (xs ++ ys)).cat c := by
  cases c with
  | folded zs => simp [cat]
  | seq a b => cases a <;> simp [cat]
  | _ => rfl

theorem cat_assoc (a b c : Node) : (a.cat b).cat c = a.cat (b.cat c) := by
  fun_induction cat a b with
  | case1 | case2 => rfl
  | case3 xs ys => rw [folded_cat_cat]
  | case4 xs ys rest => rw [seq_cat, seq_cat, cat]
  | case5 a b c' hne ih => rw [seq_cat, ih, seq_cat]
  | case6 a b hempty hempty' hfolded hrun hseq =>
    have hapart (h : a.startsRun) : b.startsRun = false := by
      cases a with
      | folded xs =>
        cases b with
        | folded ys => exact absurd rfl (hfolded xs ys rfl)
        | seq first rest =>
          cases first with
          | folded ys => exact absurd rfl (hrun xs ys rest rfl)
          | _ => rfl
        | _ => rfl
      | seq x y => exact absurd rfl (hseq x y)
      | _ => cases h
    rw [seq_cat, cat_eq_seq hempty hseq (fun h ↦ hempty' (cat_eq_empty h).1)]
    exact fun h ↦ (startsRun_cat hempty' c).trans (hapart h)

end Node

/-- What starts with no run of folded characters is matched behind what is matched ahead of it. -/
theorem run_cat {a b : Node} (hb : b.startsRun = false) (subject : Subject)
    (callee : GroupRef → Matcher) (s : State) (k : State → Option State) :
    run subject callee (a.cat b) s k =
      run subject callee a s fun t ↦ run subject callee b t k := by
  by_cases hempty : b = .empty
  · rw [hempty, Node.cat_empty]
    rfl
  induction a generalizing s with
  | empty => rfl
  | seq x y _ ih =>
    rw [Node.seq_cat, run, run]
    exact congrArg _ (funext ih)
  | _ =>
    rw [Node.cat_eq_seq (by simp) (by simp) hempty fun _ ↦ hb]
    rfl

end SyntaxHighlight.Regex
