import SyntaxHighlight.Proofs.Grammar.Matcher
import SyntaxHighlight.Proofs.Rule.Narrowed
import SyntaxHighlight.Proofs.Scan.Turn

/-! What becomes of the rules after a begin that a callback rejects. They get their turns at the
same place, unless the begin is the last one of the mode. -/
namespace SyntaxHighlight

open Rule

namespace ScanState

/-- The match is a begin, and a callback rejects it. -/
def TurnsDown (e : ScanSetting) (m : Rule.Match) : Prop :=
  ∃ id, m.kind = .begins id ∧ Rejects e id m

/-- At a place `p`, the rules of the innermost mode from number `k` on are offered to the scan in
order. The next match is that of the first of them that matches there by itself. If it is a begin
that a callback rejects, the rules after it are offered in turn, unless it is the last begin. The
scan goes on behind `p`, with all rules, only if none of them matches there. -/
inductive Offers (e : ScanSetting) (es : List Regex.Expr) (p : Nat) : Nat → ScanState → Prop
  | none {k : Nat} {s : ScanState} : NoneMatches e.text p es k es.length →
      (s.topMode e).matcher.next s.firstRule e.text s.position =
        (if p < e.text.size then (s.topMode e).matcher.next 0 e.text (p + 1) else .ok none) →
      Offers e es p k s
  | found {k following : Nat} {s : ScanState} {m : Rule.Match} {a : Regex.Expr} :
      s.Finds e m following → m.index = p → k ≤ m.rule → es[m.rule]? = some a →
      a.matchesAt e.text p = true → NoneMatches e.text p es k m.rule →
      (TurnsDown e m → m.rule + 1 ≠ (s.topMode e).matcher.beginCount →
        ∀ s', s.turn e = .ok (some s') → Offers e es p (m.rule + 1) s') →
      Offers e es p k s

variable {e : ScanSetting} {s s' : ScanState} {m : Rule.Match} {following : Nat}

theorem topMode_congr (h : s'.stack = s.stack) : s'.topMode e = s.topMode e := by
  rw [topMode, topMode, topId, topId, h]

section Rejected

variable (hm : s.Finds e m following) (hrejects : TurnsDown e m) (h : s.turn e = .ok (some s'))
include hm hrejects h

theorem turn_rejected : s'.stack = s.stack ∧
    ((following = 0 ∧ s' = (s.facing e m).stepOver e m.index) ∨
      following ≠ 0 ∧ s'.firstRule = following ∧ s'.position = m.index) := by
  obtain ⟨id, hkind, hrejects⟩ := hrejects
  have hstep := turn_begins hm h hkind
  refine ⟨hstep.stack_of_rejects hrejects, ?_⟩
  cases hstep with
  | stepsOver _ hlast => exact .inl ⟨hlast, rfl⟩
  | retries _ hlast => exact .inr ⟨hlast, rfl, rfl⟩
  | opens hno => exact absurd hrejects hno

/-- After the last begin no rule is offered: the scan steps over a character. -/
theorem turn_rejected_last (hlast : m.rule + 1 = (s.topMode e).matcher.beginCount) :
    s'.firstRule = 0 ∧ s'.position = m.index + 1 := by
  obtain ⟨_, _, _, -, -, -, hfollowing⟩ := Resumable.next_eq_some hm
  rw [if_pos hlast] at hfollowing
  obtain ⟨-, ⟨-, rfl⟩ | ⟨hne, -⟩⟩ := turn_rejected hm hrejects h
  · exact ⟨(settled_stepOver _).firstRule, rfl⟩
  · exact absurd hfollowing hne

theorem turn_rejected_resumes (hlast : m.rule + 1 ≠ (s.topMode e).matcher.beginCount) :
    s'.stack = s.stack ∧ s'.firstRule = m.rule + 1 ∧ s'.position = m.index := by
  obtain ⟨_, _, _, -, -, -, hfollowing⟩ := Resumable.next_eq_some hm
  rw [if_neg hlast] at hfollowing
  obtain ⟨hstack, ⟨hzero, -⟩ | ⟨-, hfirst, hposition⟩⟩ := turn_rejected hm hrejects h
  · omega
  · exact ⟨hstack, hfirst.trans hfollowing, hposition⟩

end Rejected

variable {g : Grammar} {es : List Regex.Expr}

/-- Rules that stay in play are offered, by induction on how many there are. -/
theorem offers_of_resumed (n : Nat) {k p : Nat} (hn : es.length - k ≤ n) (hk : k ≠ 0)
    (hr : Resumable.ofRules (s.topMode e).matcher.rules g.flags = .ok (s.topMode e).matcher)
    (hside : SideBySideFrom g.flags k (s.topMode e).matcher.rules es)
    (hfirst : s.firstRule = k) (hposition : s.position = p) : Offers e es p k s := by
  induction n generalizing s k with
  | zero =>
    obtain ⟨m, a, -, -, hle, ha, -⟩ | ⟨hnone, hnext⟩ :=
      Resumable.next_narrowed hr hk hside e.text p
    · have hlt := (List.getElem?_eq_some_iff.1 ha).1
      omega
    · exact .none hnone (by rw [hfirst, hposition]; exact hnext)
  | succ n ih =>
    obtain ⟨m, a, hnext, hindex, hle, ha, hmatch, hnone⟩ | ⟨hnone, hnext⟩ :=
      Resumable.next_narrowed hr hk hside e.text p
    · rw [← hfirst, ← hposition] at hnext
      have hm : s.Finds e m _ := hnext
      refine .found hm hindex hle ha hmatch hnone fun hrejects hlast s' hturn ↦ ?_
      obtain ⟨hstack, hfirst', hposition'⟩ := turn_rejected_resumes hm hrejects hturn hlast
      have htop := topMode_congr (e := e) hstack
      exact ih (by omega) (Nat.succ_ne_zero _) (htop ▸ hr) (htop ▸ hside.mono (by omega)) hfirst'
        (hposition'.trans hindex)
    · exact .none hnone (by rw [hfirst, hposition]; exact hnext)

/-- When a callback rejects a begin, the rules after it are offered at the same place, unless it is
the last begin of the mode. Then neither the end nor the illegal text of the mode is tried there:
the scan steps over a character, and all rules are in play again. -/
theorem rejected_begin_offers {scoring : KeywordScoring} (hg : g.compile scoring = .ok e.grammar)
    (hside : SideBySideFrom g.flags (m.rule + 1) (s.topMode e).matcher.rules es)
    (hm : s.Finds e m following) (hrejects : TurnsDown e m) (h : s.turn e = .ok (some s')) :
    s'.stack = s.stack ∧
      (m.rule + 1 ≠ (s.topMode e).matcher.beginCount → Offers e es m.index (m.rule + 1) s') ∧
      (m.rule + 1 = (s.topMode e).matcher.beginCount →
        s'.firstRule = 0 ∧ s'.position = m.index + 1) := by
  refine ⟨(turn_rejected hm hrejects h).1, fun hlast ↦ ?_, turn_rejected_last hm hrejects h⟩
  obtain ⟨hstack, hfirst, hposition⟩ := turn_rejected_resumes hm hrejects h hlast
  have htop := topMode_congr (e := e) hstack
  have hr : Resumable.ofRules (s.topMode e).matcher.rules g.flags = .ok (s.topMode e).matcher :=
    Grammar.compile_ofRules hg hm
  rw [← htop] at hside hr
  exact offers_of_resumed es.length (Nat.sub_le _ _) (Nat.succ_ne_zero _) hr hside hfirst hposition

def tagWith (others : List (Entry Mode)) : Grammar where
  contains := [.inline
    { scope := some (.name "m")
      begin := some (.source "<")
      ending := some (.source ">")
      contains := .inline
        { scope := some (.name "r")
          begin := some (.source ">")
          onBegin := some [.ignore] } :: others }]

def tagWithQ : Grammar := tagWith [.inline { begin := some (.source "q") }]

/-- With another mode after the one that is kept from beginning, the end gets its turn. -/
theorem tagWithQ_offers : ∃ (s s' : ScanState) (m : Rule.Match),
    s.turn (tagWithQ.alone "<>b") = .ok (some s') ∧ TurnsDown (tagWithQ.alone "<>b") m ∧
      s'.stack = s.stack ∧
      Offers (tagWithQ.alone "<>b") ([">", "q", ">"].map ownExpr) m.index 1 s' := by
  have hg : tagWithQ.compile default = .ok (tagWithQ.alone "<>b").grammar :=
    Grammar.compile_alone (by cbv) _
  have hrules : ((tagWithQ.alone "<>b").grammar.mode 1).matcher.rules.map Rule.source =
      [">", "q", ">"] := by
    cbv
  have hcount : ((tagWithQ.alone "<>b").grammar.mode 1).matcher.beginCount = 2 := by
    cbv
  have hcallbacks : (((tagWithQ.alone "<>b").grammar.mode 2).beforeBegin,
      ((tagWithQ.alone "<>b").grammar.mode 2).onBegin) = (none, some [.ignore]) := by
    cbv
  have hturns : (((tagWithQ.alone "<>b").start none).turn
      (tagWithQ.alone "<>b")).toOption.join.map (fun s ↦
        (s.topId, (s.turn (tagWithQ.alone "<>b")).toOption.join.isSome,
          ((s.topMode (tagWithQ.alone "<>b")).matcher.next s.firstRule
            (tagWithQ.alone "<>b").text s.position).toOption.join.map
              fun found ↦ (found.1.rule, found.1.kind))) = some (1, true, some (0, .begins 2)) := by
    cbv
  generalize tagWithQ.alone "<>b" = e at *
  obtain ⟨s, -, hvalues⟩ := eq_ok_some hturns
  simp only [Prod.mk.injEq] at hvalues hcallbacks
  obtain ⟨htop, hsecond, hfound⟩ := hvalues
  obtain ⟨s', hturn⟩ := eq_ok_of_isSome hsecond
  obtain ⟨⟨m, following⟩, hm, hrule⟩ := eq_ok_some hfound
  simp only [Prod.mk.injEq] at hrule
  have htopMode : s.topMode e = e.grammar.mode 1 := congrArg e.grammar.mode htop
  have hrejects : TurnsDown e m := by
    refine ⟨2, hrule.2, ?_⟩
    rw [Rejects, askBegin, hcallbacks.1, hcallbacks.2]
    rfl
  have hown (source : String) (h : source = ">" ∨ source = "q") (offset : Nat) :
      Separable {} offset source (ownExpr source) := by
    obtain rfl | rfl := h <;>
      exact separable_of_values [] (by cbv) (by cbv) (by cbv) (List.forall_mem_nil _)
  have hside : SideBySideFrom tagWithQ.flags (m.rule + 1) (s.topMode e).matcher.rules
      ([">", "q", ">"].map ownExpr) := by
    intro k hk
    rw [List.map_drop, htopMode, hrules]
    obtain _ | _ | _ | k := k
    · omega
    · exact .cons (hown _ (.inr rfl) _) (.inl rfl)
        (.cons (hown _ (.inl rfl) _) (.inr (by cbv)) .nil)
    · exact .cons (hown _ (.inl rfl) _) (.inl rfl) .nil
    · simp only [List.map_cons, List.map_nil, List.drop_succ_cons, List.drop_nil]
      exact .nil
  obtain ⟨hstack, hoffers, -⟩ := rejected_begin_offers hg hside hm hrejects hturn
  refine ⟨s, s', m, hturn, hrejects, hstack, ?_⟩
  rw [hrule.1] at hoffers
  refine hoffers ?_
  rw [htopMode, hcount]
  decide

/-- Without another mode the scan steps over the bracket, and the tag is still open in the end. -/
example : (((tagWith []).alone "<>b").run none).toOption.map
    (fun output ↦ output.continuation.stack.map Frame.mode) = some [1, 0] := by
  cbv

end ScanState

end SyntaxHighlight
