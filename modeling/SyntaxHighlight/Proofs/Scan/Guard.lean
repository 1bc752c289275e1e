import Mathlib
import SyntaxHighlight.Proofs.Scan.Failure
import SyntaxHighlight.Proofs.Scan.Turn

/-! The guard against matches of no width. It names the mode whose begin was found where an end now
matches nothing. That mode is the innermost one, unless a callback rejected its begin. -/
namespace SyntaxHighlight

namespace ScanState

variable {e : ScanSetting} {s s' : ScanState} {m : Rule.Match}

/-- Only the guard stops a scan with its error, and only where the scan stalls. -/
theorem onMatch_eq_zeroWidth {following : Nat} {rule : String}
    (h : s.onMatch e m following = .error (.zeroWidth rule)) :
    e.options.safeMode = false ∧
      ∃ opened, s.stalled? e m = some opened ∧ rule = (e.grammar.mode opened).displayName := by
  unfold onMatch at h
  dsimp only at h
  split at h
  · rename_i opened hs
    split at h
    · cases h
    · rename_i hstrict
      cases h
      exact ⟨by simpa using hstrict, opened, hs, rfl⟩
  · split at h
    · obtain ⟨cause, hcause, -⟩ := onBegin_eq_error h
      cases hcause
    · obtain ⟨cause, hcause, -⟩ := onEnd_eq_error h
      cases hcause
    · split at h <;> cases h

theorem turn_eq_zeroWidth {rule : String} (h : s.turn e = .error (.zeroWidth rule)) :
    e.options.safeMode = false ∧ ∃ m following opened, s.Finds e m following ∧
      s.stalled? e m = some opened ∧ rule = (e.grammar.mode opened).displayName := by
  unfold turn at h
  dsimp only at h
  split at h
  · cases h
  · cases h
  · rename_i m following hm
    split at h
    · cases h
    · obtain ⟨hstrict, opened, hs, hrule⟩ := onMatch_eq_zeroWidth (map_eq_error.1 h)
      exact ⟨hstrict, m, following, opened, hm, hs, hrule⟩

end ScanState

namespace ScanSetting

variable {e : ScanSetting} {c : Option Continuation} {s : ScanState} {m : Rule.Match}

theorem run_eq_zeroWidth {rule : String} (h : e.run c = .error (.zeroWidth rule)) :
    ∃ s, Reached e c s ∧ s.turn e = .error (.zeroWidth rule) := by
  obtain hturn | ⟨k, hk⟩ | ⟨cause, hcause, -⟩ := run_eq_error h
  · exact hturn
  · cases hk
  · cases hcause

/-- Where the last match of a state comes from if it is a begin: a state in which the begin of the
mode was found at the place. Since then the mode is open within the others, unless a callback
rejected it. -/
structure LastBegun (e : ScanSetting) (c : Option Continuation) (s : ScanState) (id place : Nat)
    (before : ScanState) (begun : Rule.Match) : Prop where
  reached : Reached e c before
  found : ∃ following, before.Finds e begun following
  kind : begun.kind = .begins id
  index : begun.index = place
  rejected : ScanState.Rejects e id begun → s.stack = before.stack
  opened : ¬ ScanState.Rejects e id begun →
    s.stack = ⟨id, (ScanState.askBegin e id begun).2⟩ :: before.stack
  /-- Only turns that stall come in between. -/
  since : before.turn e = .ok (some s) ∨ place < s.position

theorem Reached.lastBegun {id place : Nat} (hs : Reached e c s)
    (hlast : s.lastMatch = some (.begins id, place)) :
    ∃ before begun, LastBegun e c s id place before begun := by
  induction hs with
  | start => cases hlast
  | @turn t s ht hturn ih =>
    obtain ⟨m, following, hm, -⟩ := ScanState.turn_eq_some hturn
    cases hstalled : t.stalled? e m with
    | some opened =>
      obtain ⟨hstack, hmatch, hposition⟩ := ScanState.turn_stalled hm hturn hstalled
      rw [hmatch] at hlast
      obtain ⟨before, begun, h⟩ := ih hlast
      obtain ⟨-, hindex⟩ := ScanState.stalled?_eq_some hstalled
      have hplace : place = m.index := by
        rw [hlast] at hindex
        exact congrArg Prod.snd (Option.some.inj hindex)
      exact ⟨before, begun, { h with
        rejected := fun hr ↦ hstack.trans (h.rejected hr)
        opened := fun hr ↦ hstack.trans (h.opened hr)
        since := .inr (by omega) }⟩
    | none =>
      rw [ScanState.turn_lastMatch hm hturn hstalled] at hlast
      obtain ⟨hkind, hindex⟩ := Prod.mk.inj (Option.some.inj hlast)
      have hstep := ScanState.turn_begins hm hturn hkind
      exact ⟨t, m,
        { reached := ht
          found := ⟨following, hm⟩
          kind := hkind
          index := hindex
          rejected := hstep.stack_of_rejects
          opened := hstep.stack_of_not_rejects
          since := .inl hturn }⟩

/-- A scan that fails with a match of no width has come to a state in which it stalls. Where it
stalls, the begin of the mode that is named was found at that very place, in the turn before unless
the engine searches backwards. If no callback rejected that begin, the mode is the innermost one,
with what its callbacks noted then; otherwise that begin has opened no mode at all. -/
theorem guard_names_last_begun :
    (∀ rule, e.run c = .error (.zeroWidth rule) → e.options.safeMode = false ∧
      ∃ s m following opened, Reached e c s ∧ s.Finds e m following ∧
        s.stalled? e m = some opened ∧ rule = (e.grammar.mode opened).displayName) ∧
    ∀ s m opened, Reached e c s → s.stalled? e m = some opened →
      ∃ before begun, Reached e c before ∧ (∃ following, before.Finds e begun following) ∧
        begun.kind = .begins opened ∧ begun.index = m.index ∧
        (s.position ≤ m.index → before.turn e = .ok (some s)) ∧
        (¬ ScanState.Rejects e opened begun →
          s.stack = ⟨opened, (ScanState.askBegin e opened begun).2⟩ :: before.stack) ∧
        (ScanState.Rejects e opened begun → s.stack = before.stack) := by
  refine ⟨fun rule h ↦ ?_, fun s m opened hs hstalled ↦ ?_⟩
  · obtain ⟨s, hs, hturn⟩ := run_eq_zeroWidth h
    obtain ⟨hstrict, m, following, opened, hm, hstalled, hrule⟩ :=
      ScanState.turn_eq_zeroWidth hturn
    exact ⟨hstrict, s, m, following, opened, hs, hm, hstalled, hrule⟩
  · obtain ⟨-, hlast⟩ := ScanState.stalled?_eq_some hstalled
    obtain ⟨before, begun, h⟩ := hs.lastBegun hlast
    refine ⟨before, begun, h.reached, h.found, h.kind, h.index, fun hposition ↦ ?_, h.opened,
      h.rejected⟩
    obtain hturn | hpast := h.since
    · exact hturn
    · omega

/-- A tag that ends before its bracket, in which the bracket might begin another mode. -/
def openTag : Grammar where
  contains := [.inline
    { scope := some (.name "m")
      begin := some (.source "<")
      ending := some (.source "(?=>)")
      contains := [
        .inline
          { scope := some (.name "r"), begin := some (.source ">"), onBegin := some [.ignore] },
        .inline { scope := some (.name "q"), begin := some (.source "q") }] }]

theorem openTag_misnamed :
    (openTag.alone "<a>b").run none = .error (.zeroWidth "r") ∧
      ∃ (s before : ScanState) (begun : Rule.Match),
        Reached (openTag.alone "<a>b") none s ∧ begun.kind = .begins 2 ∧
        ScanState.Rejects (openTag.alone "<a>b") 2 begun ∧ s.stack = before.stack := by
  have hrun : (openTag.alone "<a>b").run none = .error (.zeroWidth "r") := by cbv
  have hnames : (openTag.alone "<a>b").grammar.modes.toList.map CompiledMode.displayName =
      ["<unnamed>", "m", "r", "q"] := by
    cbv
  have hname (i : Nat) : ((openTag.alone "<a>b").grammar.mode i).displayName =
      (["<unnamed>", "m", "r", "q"][i]?).getD "<unnamed>" := by
    rw [← hnames, List.getElem?_map, Array.getElem?_toList, CompiledGrammar.mode]
    cases (openTag.alone "<a>b").grammar.modes[i]? <;> rfl
  have hcallbacks : (((openTag.alone "<a>b").grammar.mode 2).beforeBegin,
      ((openTag.alone "<a>b").grammar.mode 2).onBegin) = (none, some [.ignore]) := by
    cbv
  obtain ⟨herror, hstalls⟩ := guard_names_last_begun (e := openTag.alone "<a>b") (c := none)
  obtain ⟨-, s, m, following, opened, hs, -, hstalled, hrule⟩ := herror "r" hrun
  have hopened : opened = 2 := by
    rw [hname] at hrule
    obtain _ | _ | _ | _ | n := opened <;> first | rfl | simp at hrule
  subst hopened
  obtain ⟨before, begun, -, -, hkind, -, -, -, hrejected⟩ := hstalls s m 2 hs hstalled
  have hrejects : ScanState.Rejects (openTag.alone "<a>b") 2 begun := by
    obtain ⟨hbefore, hon⟩ := Prod.mk.inj hcallbacks
    rw [ScanState.Rejects, ScanState.askBegin, hbefore, hon]
    rfl
  exact ⟨hrun, s, before, begun, hs, hkind, hrejects, hrejected hrejects⟩

end ScanSetting

end SyntaxHighlight
