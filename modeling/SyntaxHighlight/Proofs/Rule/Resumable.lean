import SyntaxHighlight.Proofs.Outcome
import SyntaxHighlight.Proofs.Regex.Search
import SyntaxHighlight.Rule.Resumable

/-! The rules of a mode and the alternations of their tails. -/
namespace SyntaxHighlight.Rule

section Begins

variable {rules : List Rule}

def isBegin (rule : Rule) : Bool :=
  match rule.kind with
  | .begins _ => true
  | _ => false

/-- No rule that begins a mode comes after one that does not. -/
def BeginsFirst (rules : List Rule) : Prop :=
  rules.Pairwise fun ahead rule ↦ isBegin rule = true → isBegin ahead = true

/-- The last of the rules that begin a mode. -/
def IsLastBegin (rules : List Rule) (i : Nat) : Prop :=
  (∃ rule, rules[i]? = some rule ∧ isBegin rule = true) ∧
    ∀ j rule, i < j → rules[j]? = some rule → isBegin rule = false

theorem beginsFirst_append {others : List Rule} (h : ∀ rule ∈ rules, isBegin rule = true)
    (hothers : ∀ rule ∈ others, isBegin rule = false) : BeginsFirst (rules ++ others) := by
  refine List.pairwise_append.2 ⟨?_, ?_, fun rule hrule _ _ _ ↦ h rule hrule⟩
  · exact List.pairwise_iff_getElem.2 fun _ _ hi _ _ _ ↦ h _ (List.getElem_mem hi)
  · refine List.pairwise_iff_getElem.2 fun _ _ _ hj _ hbegin ↦ ?_
    rw [hothers _ (List.getElem_mem hj)] at hbegin
    cases hbegin

theorem BeginsFirst.isBegin_iff (h : BeginsFirst rules) {i : Nat} {rule : Rule}
    (hi : rules[i]? = some rule) : isBegin rule = true ↔ i < rules.countP isBegin := by
  induction rules generalizing i with
  | nil => cases hi
  | cons first rules ih =>
    obtain ⟨hfirst, hrules⟩ := List.pairwise_cons.1 h
    by_cases hbegin : isBegin first = true
    · rw [List.countP_cons_of_pos hbegin]
      cases i with
      | zero =>
        cases hi
        exact iff_of_true hbegin (Nat.succ_pos _)
      | succ i => rw [Nat.add_lt_add_iff_right, ih hrules hi]
    · have hnone : ∀ rule ∈ first :: rules, ¬ isBegin rule = true :=
        List.forall_mem_cons.2 ⟨hbegin, fun rule hrule h ↦ hbegin (hfirst rule hrule h)⟩
      rw [List.countP_eq_zero.2 hnone]
      exact iff_of_false (hnone rule (List.mem_of_getElem? hi)) (Nat.not_lt_zero i)

theorem BeginsFirst.succ_eq_count (h : BeginsFirst rules) {i : Nat} (hi : i < rules.length) :
    i + 1 = rules.countP isBegin ↔ IsLastBegin rules i := by
  have hcount : rules.countP isBegin ≤ rules.length := List.countP_le_length
  have hrule := List.getElem?_eq_getElem hi
  constructor
  · intro hlast
    refine ⟨⟨_, hrule, (h.isBegin_iff hrule).2 (by omega)⟩, fun j rule hj hrule' ↦ ?_⟩
    have hlater := mt (h.isBegin_iff hrule').1 (by omega)
    exact Bool.eq_false_iff.2 hlater
  · rintro ⟨⟨rule, hrule', hbegin⟩, hlater⟩
    have hle := (h.isBegin_iff hrule').1 hbegin
    refine Classical.byContradiction fun hne ↦ ?_
    have hnext : i + 1 < rules.length := by omega
    have hnot := hlater (i + 1) _ (Nat.lt_succ_self i) (List.getElem?_eq_getElem hnext)
    rw [(h.isBegin_iff (List.getElem?_eq_getElem hnext)).2 (by omega)] at hnot
    cases hnot

end Begins

namespace Resumable

variable {rules : List Rule} {flags : Regex.Flags} {r : Resumable}

theorem ofRules_eq_ok (h : ofRules rules flags = .ok r) :
    r.rules = rules ∧ r.tails = ((List.range (max rules.length 1)).map fun k ↦
      Thunk.mk fun _ ↦ tailAlternation rules flags k).toArray := by
  unfold ofRules at h
  dsimp only at h
  split at h
  · obtain ⟨_, -, h⟩ := bind_eq_ok.1 h
    cases h
    exact ⟨rfl, rfl⟩
  · cases h
    exact ⟨rfl, rfl⟩

theorem searchTail_ofRules (h : ofRules rules flags = .ok r) {k start : Nat} {text : Text} :
    r.searchTail k text start =
      if k < max rules.length 1 then
        (fun a ↦ a.search? text start) <$> tailAlternation rules flags k
      else .ok none := by
  obtain ⟨-, htails⟩ := ofRules_eq_ok h
  rw [searchTail, htails]
  by_cases hk : k < max rules.length 1
  · rw [if_pos hk]
    simp only [List.getElem?_toArray, List.getElem?_map, List.getElem?_range hk, Option.map_some]
    rfl
  · rw [if_neg hk]
    have hnone : (List.range (max rules.length 1))[k]? = none :=
      List.getElem?_eq_none (by simpa using Nat.le_of_not_lt hk)
    simp only [List.getElem?_toArray, List.getElem?_map, hnone]
    rfl

theorem getElem?_tails_zero (rules : List Rule) (flags : Regex.Flags) :
    ((List.range (max rules.length 1)).map fun k ↦
      Thunk.mk fun _ ↦ tailAlternation rules flags k).toArray[0]? =
        some (Thunk.mk fun _ ↦ tailAlternation rules flags 0) := by
  have hpos : 0 < max rules.length 1 := by omega
  rw [List.getElem?_toArray, List.getElem?_map, List.getElem?_range hpos]
  rfl

theorem exists_ofRules {a : Alternation} (h : tailAlternation rules flags 0 = .ok a) :
    ∃ r, ofRules rules flags = .ok r := by
  unfold ofRules
  simp only [getElem?_tails_zero]
  exact ⟨_, bind_eq_ok.2 ⟨some a, map_eq_ok.2 ⟨a, h, rfl⟩, rfl⟩⟩

theorem tailAlternation_of_ofRules (h : ofRules rules flags = .ok r) :
    ∃ a, tailAlternation rules flags 0 = .ok a := by
  unfold ofRules at h
  simp only [getElem?_tails_zero] at h
  obtain ⟨_, hall, -⟩ := bind_eq_ok.1 h
  obtain ⟨a, ha, -⟩ := map_eq_ok.1 hall
  exact ⟨a, ha⟩

theorem next_of_size_lt (h : ofRules rules flags = .ok r) {text : Text} {start : Nat}
    (hstart : text.size < start) : r.next 0 text start = .ok none := by
  obtain ⟨a, ha⟩ := tailAlternation_of_ofRules h
  have hnone : a.search? text start = none := by
    cases hexpr : a.expr with
    | none => simp [Alternation.search?, hexpr]
    | some expr =>
      simp [Alternation.search?, hexpr, Regex.Expr.captures?_of_size_lt hstart]
  have hsearch : r.searchTail 0 text start = .ok none := by
    rw [searchTail_ofRules h, if_pos (by omega), ha, ← hnone]
    rfl
  rw [next, hsearch]
  rfl

/-- Whatever rules are in play, the next match is a hit of some tail of the rules, from the start
on or from one character later. -/
theorem next_eq_some {first start following : Nat} {text : Text} {m : Match}
    (h : r.next first text start = .ok (some (m, following))) :
    ∃ k start' hit, start ≤ start' ∧ r.searchTail k text start' = .ok (some hit) ∧
      m = ⟨k + hit.position, (r.rules[k + hit.position]?.map Rule.kind).getD .illegal, hit.index,
        hit.groups⟩ ∧
      following = if m.rule + 1 = r.beginCount then 0 else m.rule + 1 := by
  obtain ⟨narrowed, hnarrowed, h⟩ := bind_eq_ok.1 h
  dsimp only at h
  split at h
  · split at h
    · obtain ⟨all, hall, h⟩ := bind_eq_ok.1 h
      cases all with
      | none => cases h
      | some hit =>
        cases h
        exact ⟨0, start + 1, hit, Nat.le_succ _, hall, rfl, rfl⟩
    · cases h
  · cases narrowed with
    | none => cases h
    | some hit =>
      cases h
      exact ⟨first, start, hit, Nat.le_refl _, hnarrowed, rfl, rfl⟩

theorem next_begins {first start following id : Nat} {text : Text} {m : Match}
    (h : r.next first text start = .ok (some (m, following))) (hm : m.kind = .begins id) :
    ∃ rule ∈ r.rules, rule.kind = .begins id := by
  obtain ⟨k, start', hit, -, -, rfl, -⟩ := next_eq_some h
  cases hrule : r.rules[k + hit.position]? with
  | none => simp [hrule] at hm
  | some rule =>
    simp only [hrule, Option.map_some, Option.getD_some] at hm
    exact ⟨rule, List.mem_of_getElem? hrule, hm⟩

theorem next_default (first : Nat) (text : Text) (start : Nat) :
    (default : Resumable).next first text start = .ok none := by
  have hsearch (k start : Nat) : (default : Resumable).searchTail k text start = .ok none := rfl
  simp only [next, hsearch, bind, Except.bind, pure, Except.pure]
  split
  · split <;> rfl
  · rfl

end Resumable

end SyntaxHighlight.Rule
