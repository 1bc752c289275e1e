import Mathlib
import SyntaxHighlight.Proofs.Regex.Raised
import SyntaxHighlight.Rule.Alternation

/-!
A race of expressions, each searching for itself, and the tree in which they stand side by side,
each in a group of its own. A search with the tree finds the winner of the race.
-/
namespace SyntaxHighlight.Rule

open Regex

/-- The number of groups of some expressions, the ones around them counted. -/
def slots (es : List Expr) : Nat := (es.map fun e ↦ e.groupCount + 1).sum

/-- What an expression has found by itself, as a hit with `later` more groups after its own. -/
def ownHit (position later : Nat) (spans : List (Option Span)) : Option Hit :=
  spans.head?.join.map fun span ↦ ⟨position, span.1, spans ++ List.replicate later none⟩

/-- The hit that starts first, or the first one if they start at the same place. -/
def earlier : Option Hit → Option Hit → Option Hit
  | none, other => other
  | some hit, none => some hit
  | some hit, some other => if other.index < hit.index then some other else some hit

/-- The winner among expressions, the first of which has the given position, if each of them finds
what `find` says. -/
def winnerOf (find : Expr → Option (List (Option Span))) : Nat → List Expr → Option Hit
  | _, [] => none
  | position, e :: es =>
    earlier ((find e).bind (ownHit position (slots es))) (winnerOf find (position + 1) es)

def race (text : Text) (start : Nat) (es : List Expr) : Option Hit :=
  winnerOf (·.captures? text start) 0 es

/-- Trees of expressions side by side, each in a group, with `ahead` groups ahead of them. -/
inductive Joined : Nat → List Expr → Node → Prop
  | last {ahead : Nat} {e : Expr} {body : Node} : e.root.isPlain e.groupCount →
      Raised (ahead + 1) e.root body → Joined ahead [e] (.group (ahead + 1) body)
  | more {ahead : Nat} {e : Expr} {es : List Expr} {body others : Node} :
      e.root.isPlain e.groupCount → Raised (ahead + 1) e.root body →
      Joined (ahead + 1 + e.groupCount) es others →
      Joined ahead (e :: es) (.alt (.group (ahead + 1) body) others)

def wrappersOf : Nat → List Expr → List Nat
  | _, [] => []
  | ahead, e :: es => (ahead + 1) :: wrappersOf (ahead + 1 + e.groupCount) es

/-- The second state is that of the match that the first is the end of, within group `wrapper`. -/
structure Wraps (wrapper count start : Nat) (t u : State) : Prop where
  le : start ≤ t.pos
  kept : t.kept = none
  whole : u.group wrapper = some (start, t.pos)
  own (n : Nat) : 0 < n → u.group (n + wrapper) = t.group n
  others (n : Nat) : n < wrapper ∨ count + wrapper < n → u.group n = none

section Wrapped

variable {ahead : Nat} {e : Expr} {body : Node}

theorem group_cons {event : CaptureEvent} {s : State} {n : Nat} (h : event.group ≠ n) :
    State.group { s with events := event :: s.events } n = s.group n := by
  cases event with
  | entered m pos =>
    have h : m ≠ n := h
    simp [State.group, groupStart, groupStop, h]
  | left m pos stop =>
    have h : m ≠ n := h
    simp [State.group, groupStart, groupStop, h]

/-- Where something happened to groups ahead only, an expression matches as by itself. -/
theorem rel_behind (hplain : e.root.isPlain e.groupCount) (h : Raised ahead e.root body) {s : State}
    (hkept : s.kept = none) (hbefore : OnlyUpTo ahead s.events)
    (hahead : OnlyEntered ahead s.events ∨ body.refersAbove ahead) (text : Text) (searchStart : Nat)
    (callee : GroupRef → Matcher) :
    Option.Rel (Alongside ahead e.groupCount s.events s.pos)
      (e.finalState? text searchStart s.pos) (run ⟨text, searchStart⟩ callee body s some) := by
  have halongside : Alongside ahead e.groupCount s.events s.pos { pos := s.pos } s :=
    ⟨rfl, Nat.le_refl _, rfl, hkept, rfl, nofun⟩
  exact h.follows hplain hbefore hahead ⟨text, searchStart⟩ _ callee halongside
    fun _ _ ht ↦ .some ht

/-- In a group of its own an expression matches as by itself. -/
theorem rel_wrapped (hplain : e.root.isPlain e.groupCount) (h : Raised (ahead + 1) e.root body)
    (text : Text) (searchStart start : Nat) (callee : GroupRef → Matcher) :
    Option.Rel (Wraps (ahead + 1) e.groupCount start) (e.finalState? text searchStart start)
      (run ⟨text, searchStart⟩ callee (.group (ahead + 1) body) { pos := start } some) := by
  let base : List CaptureEvent := [.entered (ahead + 1) start]
  have hbase : OnlyEntered (ahead + 1) base := fun event hevent ↦
    ⟨start, List.mem_singleton.1 hevent⟩
  have halongside : Alongside (ahead + 1) e.groupCount base start { pos := start }
      { pos := start, events := base } :=
    ⟨rfl, Nat.le_refl _, rfl, rfl, rfl, nofun⟩
  rw [Expr.finalState?, run]
  refine h.follows hplain hbase.onlyUpTo (.inl hbase) ⟨text, searchStart⟩ _ callee halongside
    fun t u ht ↦ .some ?_
  refine ⟨ht.least, ht.kept, ?_, fun n hn ↦ ?_, fun n hn ↦ ?_⟩
  · simp [State.group, groupStart, groupStop, ht.pos]
  · rw [group_cons (by simp only [CaptureEvent.group]; omega)]
    exact ht.group_raise hbase.onlyUpTo hn
  · rw [group_cons (by simp only [CaptureEvent.group]; omega)]
    exact ht.group_eq_none hbase (by omega)

end Wrapped

/-- The hit of the first of some expressions that match exactly at `start`. -/
def firstAt (text : Text) (searchStart start : Nat) : Nat → List Expr → Option Hit
  | _, [] => none
  | position, e :: es =>
    match e.matchAt? text searchStart start with
    | some spans => ownHit position (slots es) spans
    | none => firstAt text searchStart start (position + 1) es

section Side

variable {ahead : Nat} {a e : Expr} {es : List Expr} {body node : Node} {text : Text}
  {searchStart start : Nat} {t u : State}

theorem spans_eq (h : Wraps (ahead + 1) e.groupCount start t u) : e.spans start t =
    some (start, t.pos) :: (List.range e.groupCount).map fun i ↦ t.group (i + 1) := by
  rw [Expr.spans, h.kept, Option.getD_none, Nat.min_eq_left h.le]

/-- From the group around an expression on, a match has what the expression finds by itself. -/
theorem drop_spans {later : Nat} (h : Wraps (ahead + 1) e.groupCount start t u)
    (hcount : a.groupCount = ahead + (e.groupCount + 1 + later)) :
    (a.spans start u).drop (ahead + 1) = e.spans start t ++ List.replicate later none := by
  have hown : (List.range e.groupCount).map (fun i ↦ u.group (ahead + (i + 1) + 1)) =
      (List.range e.groupCount).map fun i ↦ t.group (i + 1) := by
    refine List.map_congr_left fun i _ ↦ ?_
    rw [← h.own (i + 1) (Nat.succ_pos i), Nat.add_comm (i + 1), Nat.add_right_comm]
  have hlater : (List.range later).map (fun i ↦ u.group (ahead + (e.groupCount + 1 + i) + 1)) =
      List.replicate later none := by
    rw [List.eq_replicate_iff]
    refine ⟨by simp, fun span hspan ↦ ?_⟩
    obtain ⟨i, -, rfl⟩ := List.mem_map.1 hspan
    exact h.others _ (.inr (by omega))
  rw [spans_eq h, Expr.spans, List.drop_succ_cons, hcount, List.range_add, List.map_append,
    List.drop_left' (by simp), List.range_add, List.range_succ_eq_map, ← hown, ← hlater]
  simp only [List.map_append, List.map_cons, List.map_map, List.cons_append, Nat.add_zero, h.whole]
  rfl

theorem getElem?_spans (hcount : ahead < a.groupCount) :
    (a.spans start u)[ahead + 1]?.join = u.group (ahead + 1) := by
  rw [Expr.spans, List.getElem?_cons_succ, List.getElem?_map, List.getElem?_range hcount]
  rfl

theorem winner?_of_some {position stop : Nat} {wrappers : List Nat} (hcount : ahead < a.groupCount)
    (h : u.group (ahead + 1) = some (start, stop)) :
    Alternation.winner? (a.spans start u) position ((ahead + 1) :: wrappers) =
      some ⟨position, start, (a.spans start u).drop (ahead + 1)⟩ := by
  rw [Alternation.winner?, getElem?_spans hcount, h]

theorem winner?_of_none {position : Nat} {wrappers : List Nat} (hcount : ahead < a.groupCount)
    (h : u.group (ahead + 1) = none) :
    Alternation.winner? (a.spans start u) position ((ahead + 1) :: wrappers) =
      Alternation.winner? (a.spans start u) (position + 1) wrappers := by
  rw [Alternation.winner?, getElem?_spans hcount, h]

theorem winner?_wrapped {position later : Nat} {wrappers : List Nat}
    (h : Wraps (ahead + 1) e.groupCount start t u)
    (hcount : a.groupCount = ahead + (e.groupCount + 1 + later)) :
    Alternation.winner? (a.spans start u) position ((ahead + 1) :: wrappers) =
      ownHit position later (e.spans start t) := by
  rw [winner?_of_some (by omega) h.whole, drop_spans h hcount, ownHit, spans_eq h]
  rfl

/-- A match of the tree is one of the first expression that matches there. -/
theorem winner_joined (h : Joined ahead es node) (hcount : a.groupCount = ahead + slots es)
    (text : Text) (searchStart start : Nat) (callee : GroupRef → Matcher) (position : Nat) :
    (run ⟨text, searchStart⟩ callee node { pos := start } some = none →
      firstAt text searchStart start position es = none) ∧
    ∀ u, run ⟨text, searchStart⟩ callee node { pos := start } some = some u →
      (firstAt text searchStart start position es).isSome ∧
      Alternation.winner? (a.spans start u) position (wrappersOf ahead es) =
        firstAt text searchStart start position es ∧ ∀ m ≤ ahead, u.group m = none := by
  induction h generalizing position with
  | @last ahead e body hplain hraised =>
    have hrel := rel_wrapped hplain hraised text searchStart start callee
    have hcount : a.groupCount = ahead + (e.groupCount + 1 + 0) := by simpa [slots] using hcount
    simp only [firstAt, Expr.matchAt?, wrappersOf]
    generalize e.finalState? text searchStart start = x,
      run ⟨text, searchStart⟩ callee (.group (ahead + 1) body) { pos := start } some = y at hrel
    cases hrel with
    | none => exact ⟨fun _ ↦ rfl, fun _ hu ↦ by cases hu⟩
    | @some t u h =>
      refine ⟨by simp, fun u' hu ↦ ?_⟩
      cases hu
      exact ⟨rfl, winner?_wrapped h hcount, fun m hm ↦ h.others m (.inl (Nat.lt_succ_of_le hm))⟩
  | @more ahead e es body others hplain hraised _ ih =>
    have hrel := rel_wrapped hplain hraised text searchStart start callee
    have hcount : a.groupCount = ahead + (e.groupCount + 1 + slots es) := by
      simpa [slots] using hcount
    obtain ⟨hnone, hsome⟩ := ih (by omega) (position + 1)
    simp only [firstAt, Expr.matchAt?, wrappersOf]
    rw [run]
    generalize e.finalState? text searchStart start = x,
      run ⟨text, searchStart⟩ callee (.group (ahead + 1) body) { pos := start } some = y at hrel
    cases hrel with
    | none =>
      refine ⟨hnone, fun u hu ↦ ?_⟩
      obtain ⟨hfirst, hwinner, hahead⟩ := hsome u hu
      refine ⟨hfirst, ?_, fun m hm ↦ hahead m (by omega)⟩
      -- The group around this expression has not taken part, so another one has won.
      rw [winner?_of_none (by omega) (hahead (ahead + 1) (by omega))]
      exact hwinner
    | @some t u h =>
      refine ⟨by simp, fun u' hu ↦ ?_⟩
      cases hu
      exact ⟨rfl, winner?_wrapped h hcount, fun m hm ↦ h.others m (.inl (Nat.lt_succ_of_le hm))⟩

end Side

end SyntaxHighlight.Rule
