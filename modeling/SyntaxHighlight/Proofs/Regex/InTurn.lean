import SyntaxHighlight.Proofs.Regex.Concatenation
import SyntaxHighlight.Proofs.Regex.HandsOn
import SyntaxHighlight.Proofs.Regex.Onward
import SyntaxHighlight.Proofs.Regex.Outcomes
import SyntaxHighlight.Proofs.Regex.Reading.Course

/-!
Groups one after another. Whatever is within them, in a match each of them starts where the one
before it stops.
-/
namespace SyntaxHighlight.Regex

/-- What was known of the first `count` groups, and of a reset, still is. -/
structure Spares (count : Nat) (s t : State) : Prop where
  kept : t.kept = s.kept
  group (n : Nat) : 0 < n → n ≤ count → t.group n = s.group n

section Sparing

variable {count : Nat} {s t : State} {node : Node}

theorem isPlaceless_spares (count : Nat) : IsPlaceless (Spares count) where
  refl _ := ⟨rfl, fun _ _ _ ↦ rfl⟩
  trans h h' := ⟨h'.kept.trans h.kept, fun n hn hle ↦ (h'.group n hn hle).trans (h.group n hn hle)⟩
  leads _ := trivial
  moved _ _ := ⟨rfl, fun _ _ _ ↦ rfl⟩

theorem group_entered {n m : Nat} (h : m ≠ n) (s : State) (start : Nat) :
    { s with events := .entered m start :: s.events }.group n = s.group n := by
  simp [State.group, groupStart, groupStop, h]

theorem group_left {n m : Nat} (h : m ≠ n) (s : State) (start stop : Nat) :
    { s with events := .left m start stop :: s.events }.group n = s.group n := by
  simp [State.group, groupStart, groupStop, h]

theorem group_left_self (n : Nat) (s : State) (start stop : Nat) :
    { s with events := .left n start stop :: s.events }.group n = some (start, stop) := by
  simp [State.group, groupStart, groupStop]

theorem encloses_spares {m : Nat} (hm : m = 0 ∨ count < m) : Encloses (Spares count) m := by
  intro s t h
  refine ⟨h.kept, fun n hn hle ↦ ?_⟩
  have hne : m ≠ n := by omega
  rw [group_left hne, h.group n hn hle, group_entered hne]

theorem Spares.mono {count' : Nat} (h : Spares count s t) (hle : count' ≤ count) :
    Spares count' s t :=
  ⟨h.kept, fun n hn hle' ↦ h.group n hn (Nat.le_trans hle' hle)⟩

theorem not_strays {x : Node} (h : node.strays = false) (hx : x ∈ node.subterms) :
    x.isStray = false :=
  Bool.eq_false_of_not_eq_true (List.any_eq_false.1 h x hx)

theorem handsOn_spares (hbeyond : Beyond count node) (hstrays : node.strays = false)
    (subject : Subject) (callee : GroupRef → Matcher) :
    HandsOn Anywhere (Spares count) (run subject callee node) := by
  refine handsOn_run (isPlaceless_spares count) (fun n body hmem ↦ encloses_spares ?_)
    (fun hmem ↦ nomatch not_strays hstrays hmem) fun target hmem ↦ nomatch not_strays hstrays hmem
  have hwithin := List.any_eq_false.1 hbeyond _ hmem
  simp only [Node.isGroupWithin, Bool.and_eq_true, decide_eq_true_eq] at hwithin
  omega

theorem keepsTo_of_strays (h : node.strays = false) : node.keepsTo false true := by
  induction node with
  | seq a b iha ihb | alt a b iha ihb =>
    simp only [Node.strays, Node.subterms, List.any_cons, List.any_append,
      Bool.or_eq_false_iff] at h
    exact (Bool.and_eq_true _ _).mpr ⟨iha h.2.1, ihb h.2.2⟩
  | group _ body ih | atomic body ih | repetition body _ _ _ ih =>
    simp only [Node.strays, Node.subterms, List.any_cons, Bool.or_eq_false_iff] at h
    exact ih h.2
  | look direction _ body ih =>
    simp only [Node.strays, Node.subterms, List.any_cons, Bool.or_eq_false_iff] at h
    cases direction <;> exact ih h.2
  | keep => cases h
  | _ => rfl

theorem calls_of_strays (h : node.strays = false) :
    node.subterms.any Node.isCall = false := by
  rw [List.any_eq_false]
  intro x hx hcall
  cases x with
  | call => cases not_strays h hx
  | _ => cases hcall

end Sparing

/-- What a match hands on is one of its outcomes, which something else could have asked for. -/
theorem exists_outcome {m : Matcher} {s r : State} {k : State → Option State} (h : Tries (m s))
    (hr : m s k = some r) :
    ∃ t, k t = some r ∧ m s (fun u ↦ if u = t then some u else none) = some t := by
  obtain ⟨outcomes, hfound⟩ := h
  rw [hfound] at hr
  obtain ⟨t, ht, hk⟩ := List.exists_of_findSome?_eq_some hr
  refine ⟨t, hk, ?_⟩
  rw [hfound]
  have hsome : (outcomes.findSome? fun u ↦ if u = t then some u else none).isSome :=
    List.findSome?_isSome_iff.2 ⟨t, ht, by simp⟩
  obtain ⟨u, hu⟩ := Option.isSome_iff_exists.1 hsome
  obtain ⟨v, -, hv⟩ := List.exists_of_findSome?_eq_some hu
  obtain ⟨rfl, heq⟩ := Option.ite_none_right_eq_some.1 hv
  rw [hu, ← heq]

/-- Groups one after another behind `ahead` others, with as many in each as are given. -/
inductive InTurn : Nat → List Nat → Node → Prop
  | nil (ahead : Nat) : InTurn ahead [] .empty
  | cons {ahead inner : Nat} {inners : List Nat} {body others : Node} : body.strays = false →
      Beyond (ahead + 1) body → InTurn (ahead + 1 + inner) inners others →
      InTurn ahead (inner :: inners) ((Node.group (ahead + 1) body).cat others)

/-- The numbers of groups one after another. -/
def numbersInTurn : Nat → List Nat → List Nat
  | _, [] => []
  | ahead, inner :: inners => (ahead + 1) :: numbersInTurn (ahead + 1 + inner) inners

/-- Groups lie next to each other and cover a stretch of the text. -/
def Covers (s : State) : List Nat → Nat → Nat → Prop
  | [], start, stop => start = stop
  | n :: ns, start, stop =>
    ∃ middle, s.group n = some (start, middle) ∧ start ≤ middle ∧ Covers s ns middle stop

theorem mem_numbersInTurn {ahead n : Nat} {inners : List Nat} (h : n ∈ numbersInTurn ahead inners) :
    ahead < n ∧ n ≤ ahead + (inners.map (· + 1)).sum := by
  induction inners generalizing ahead with
  | nil => cases h
  | cons inner inners ih =>
    rw [List.map_cons, List.sum_cons]
    obtain rfl | h := List.mem_cons.1 h
    · omega
    · have := ih h
      omega

namespace InTurn

variable {ahead : Nat} {inners : List Nat} {node : Node} {s r : State} {k : State → Option State}
  {subject : Subject} {callee : GroupRef → Matcher}

theorem startsRun_eq_false (h : InTurn ahead inners node) : node.startsRun = false := by
  cases h with
  | nil => rfl
  | cons => exact Node.startsRun_cat (by simp) _

theorem strays_eq_false (h : InTurn ahead inners node) : node.strays = false := by
  induction h with
  | nil => rfl
  | cons hbody _ _ ih =>
    exact (any_cat isStray_of_isCommon).trans
      (Bool.or_eq_false_iff.2 ⟨any_group_eq_false rfl hbody, ih⟩)

/-- The groups are entered and left in turn, and nothing happens to those ahead. -/
theorem run_covers (h : InTurn ahead inners node)
    (hcallee : ∀ target, GoesOnward false true subject.text (callee target))
    (htries : ∀ target s, Tries (callee target s)) (hs : s.pos ≤ subject.text.size)
    (hr : run subject callee node s k = some r) :
    ∃ t, k t = some r ∧ Spares ahead s t ∧ t.pos ≤ subject.text.size ∧
      Covers t (numbersInTurn ahead inners) s.pos t.pos := by
  induction h generalizing s with
  | nil => exact ⟨s, hr, (isPlaceless_spares _).refl trivial, hs, rfl⟩
  | @cons ahead inner inners body others hstrays hbeyond hothers ih =>
    rw [run_cat hothers.startsRun_eq_false, run] at hr
    obtain ⟨t, hr, houtcome⟩ := exists_outcome (tries_run subject htries body _) hr
    obtain ⟨u, hspares, heq⟩ := handsOn_spares hbeyond hstrays subject callee trivial houtcome
    obtain ⟨rfl, -⟩ := Option.ite_none_right_eq_some.1 heq
    obtain ⟨v, honward, heq⟩ := goesOnward_run (keepsTo_of_strays hstrays) hcallee
      (s := { s with events := .entered (ahead + 1) s.pos :: s.events }) hs houtcome
    obtain ⟨rfl, -⟩ := Option.ite_none_right_eq_some.1 heq
    let left : State := { v with events := .left (ahead + 1) s.pos v.pos :: v.events }
    obtain ⟨w, hk, hspares', hsize, hcovers⟩ := ih (s := left) honward.le_size hr
    have hgroup : w.group (ahead + 1) = some (s.pos, v.pos) :=
      (hspares'.group _ (Nat.succ_pos _) (Nat.le_add_right _ _)).trans (group_left_self _ v _ _)
    have hleft : Spares ahead s left :=
      encloses_spares (.inr (Nat.lt_succ_self ahead)) (hspares.mono (Nat.le_succ ahead))
    have hspared : Spares ahead left w := hspares'.mono (by omega)
    exact ⟨w, hk, (isPlaceless_spares _).trans hleft hspared, hsize, v.pos, hgroup,
      honward.pos_le, hcovers⟩

end InTurn

end SyntaxHighlight.Regex
