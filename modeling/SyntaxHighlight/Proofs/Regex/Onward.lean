import SyntaxHighlight.Proofs.Regex.HandsOn
import SyntaxHighlight.Proofs.Regex.Raised
import SyntaxHighlight.Proofs.Regex.Search
import SyntaxHighlight.Proofs.Text.Slice

/-!
A match goes on through the text: it ends within it, at or after the place where it started. It is
reported from there unless it is reset, and its groups lie behind there unless it looks back.
-/
namespace SyntaxHighlight.Regex

/-- Whether a tree resets the match only if it may, and looks back only if it may. -/
def Node.keepsTo (resets looksBack : Bool) : Node → Bool
  | .seq a b | .alt a b => a.keepsTo resets looksBack && b.keepsTo resets looksBack
  | .group _ body | .atomic body | .repetition body .. | .look .ahead _ body =>
    body.keepsTo resets looksBack
  | .look .behind _ body => looksBack && body.keepsTo resets looksBack
  | .keep => resets
  | _ => true

section Events

variable {n start start' stop : Nat} {events later : List CaptureEvent}

theorem groupStart_append (n : Nat) (later events : List CaptureEvent) :
    groupStart n (later ++ events) = (groupStart n later).or (groupStart n events) := by
  induction later with
  | nil => rfl
  | cons e later ih =>
    cases e <;>
    · rw [List.cons_append, groupStart, groupStart, ih]
      split <;> rfl

theorem groupStop_append (n : Nat) (later events : List CaptureEvent) :
    groupStop n (later ++ events) = (groupStop n later).or (groupStop n events) := by
  induction later with
  | nil => rfl
  | cons e later ih =>
    cases e with
    | entered => exact ih
    | left =>
      rw [List.cons_append, groupStop, groupStop, ih]
      split <;> rfl

/-- Every group that took part has been left again, and spans a stretch between two positions. -/
def SpansWithin (start stop : Nat) (events : List CaptureEvent) : Prop :=
  ∀ n, groupStart n events = none ∧ groupStop n events = none ∨
    ∃ first last, groupStart n events = some first ∧ groupStop n events = some last ∧
      start ≤ first ∧ first ≤ last ∧ last ≤ stop

theorem spansWithin_nil : SpansWithin start stop [] := fun _ ↦ .inl ⟨rfl, rfl⟩

theorem SpansWithin.append (hlater : SpansWithin start' stop later) (h : SpansWithin start stop events)
    (hle : start ≤ start') : SpansWithin start stop (later ++ events) := by
  intro n
  rw [groupStart_append, groupStop_append]
  obtain ⟨hstart, hstop⟩ | ⟨first, last, hstart, hstop, hfirst, hlast, hle'⟩ := hlater n
  · rw [hstart, hstop]
    exact h n
  · rw [hstart, hstop]
    exact .inr ⟨first, last, rfl, rfl, by omega, hlast, hle'⟩

theorem SpansWithin.grouped {last : Nat} (h : SpansWithin start stop events) (hlast : start ≤ last)
    (hstop : last ≤ stop) (m : Nat) :
    SpansWithin start stop (.left m start last :: (events ++ [.entered m start])) := by
  intro n
  by_cases hm : m = n
  · exact .inr ⟨start, last, by simp [groupStart, hm], by simp [groupStop, hm], Nat.le_refl _,
      hlast, hstop⟩
  · have hstart : groupStart n (.left m start last :: (events ++ [.entered m start])) =
        groupStart n events := by simp [groupStart, groupStart_append, hm]
    have hstop : groupStop n (.left m start last :: (events ++ [.entered m start])) =
        groupStop n events := by simp [groupStop, groupStop_append, hm]
    rw [hstart, hstop]
    exact h n

end Events

/-- A later state of a match. -/
structure Onward (resets looksBack : Bool) (text : Text) (s s' : State) : Prop where
  pos_le : s.pos ≤ s'.pos
  le_size : s'.pos ≤ text.size
  kept : resets = false → s'.kept = s.kept
  groups : looksBack = false →
    ∃ events, s'.events = events ++ s.events ∧ SpansWithin s.pos text.size events

variable {resets looksBack : Bool} {text : Text}

namespace Onward

variable {s s' s'' : State} {pos : Nat}

theorem refl (hs : s.pos ≤ text.size) : Onward resets looksBack text s s :=
  ⟨Nat.le_refl _, hs, fun _ ↦ rfl, fun _ ↦ ⟨[], rfl, spansWithin_nil⟩⟩

theorem trans (h : Onward resets looksBack text s s') (h' : Onward resets looksBack text s' s'') :
    Onward resets looksBack text s s'' := by
  refine ⟨Nat.le_trans h.pos_le h'.pos_le, h'.le_size,
    fun hr ↦ (h'.kept hr).trans (h.kept hr), fun hl ↦ ?_⟩
  obtain ⟨events, hevents, hspans⟩ := h.groups hl
  obtain ⟨later, hlater, hspans'⟩ := h'.groups hl
  exact ⟨later ++ events, by rw [hlater, hevents, List.append_assoc],
    hspans'.append hspans h.pos_le⟩

theorem moved (hle : s.pos ≤ pos) (hsize : pos ≤ text.size) :
    Onward resets looksBack text s { s with pos := pos } :=
  ⟨hle, hsize, fun _ ↦ rfl, fun _ ↦ ⟨[], rfl, spansWithin_nil⟩⟩

theorem moved_back (h : Onward resets looksBack text s s') (hs : s.pos ≤ text.size) :
    Onward resets looksBack text s { s' with pos := s.pos } :=
  ⟨Nat.le_refl _, hs, h.kept, h.groups⟩

theorem reset {kept : Option Nat} (hs : s.pos ≤ text.size) (hresets : resets = true) :
    Onward resets looksBack text s { s with kept := kept } := by
  refine ⟨Nat.le_refl _, hs, fun hno ↦ ?_, fun _ ↦ ⟨[], rfl, spansWithin_nil⟩⟩
  rw [hresets] at hno
  cases hno

theorem grouped {n : Nat}
    (h : Onward resets looksBack text { s with events := .entered n s.pos :: s.events } s') :
    Onward resets looksBack text s
      { s' with events := .left n s.pos s'.pos :: s'.events } := by
  refine ⟨h.pos_le, h.le_size, h.kept, fun hl ↦ ?_⟩
  obtain ⟨events, hevents, hspans⟩ := h.groups hl
  refine ⟨.left n s.pos s'.pos :: (events ++ [.entered n s.pos]), ?_,
    hspans.grouped h.pos_le h.le_size n⟩
  simp [hevents]

end Onward

/-- A matcher that hands on only later states. -/
def GoesOnward (resets looksBack : Bool) (text : Text) (m : Matcher) : Prop :=
  ∀ {s r : State} {k : State → Option State}, s.pos ≤ text.size → m s k = some r →
    ∃ t, Onward resets looksBack text s t ∧ k t = some r

section Matchers

variable {m : Matcher}

theorem isSteady_onward (resets looksBack : Bool) (text : Text) :
    IsSteady (·.pos ≤ text.size) (Onward resets looksBack text) where
  refl := .refl
  trans := .trans
  leads h := h.le_size

theorem GoesOnward.bind {m' : Matcher} {s r : State} {k : State → Option State}
    (h : GoesOnward resets looksBack text m) (h' : GoesOnward resets looksBack text m')
    (hs : s.pos ≤ text.size) (hr : (m s fun t ↦ m' t k) = some r) :
    ∃ t, Onward resets looksBack text s t ∧ k t = some r :=
  HandsOn.bind (isSteady_onward resets looksBack text) h h' hs hr

theorem GoesOnward.some {s s' : State} (h : GoesOnward resets looksBack text m) (hs : s.pos ≤ text.size)
    (hr : m s some = some s') : Onward resets looksBack text s s' :=
  HandsOn.found h hs hr

theorem goesOnward_times (h : GoesOnward resets looksBack text m) (n : Nat) :
    GoesOnward resets looksBack text (times m n) :=
  handsOn_times (isSteady_onward resets looksBack text) h n

theorem goesOnward_upTo (h : GoesOnward resets looksBack text m) (greedy : Bool) (n : Nat) :
    GoesOnward resets looksBack text (upTo m greedy n) :=
  handsOn_upTo (isSteady_onward resets looksBack text) h greedy n

theorem goesOnward_anyTimes (h : GoesOnward resets looksBack text m) (greedy : Bool) (n : Nat) :
    GoesOnward resets looksBack text (anyTimes m greedy n) :=
  handsOn_anyTimes (isSteady_onward resets looksBack text) h greedy n

theorem endingAt_onward (h : GoesOnward resets looksBack text m) {s s' : State} {n distance : Nat}
    (hs : s.pos ≤ text.size) (hr : endingAt m s n distance = some s') :
    s'.pos = s.pos ∧ (resets = false → s'.kept = s.kept) := by
  induction n generalizing distance with
  | zero => cases hr
  | succ n ih =>
    rw [endingAt] at hr
    split at hr
    · split at hr
      · rename_i hends
        cases hr
        obtain ⟨t, ht, hr⟩ := h (Nat.le_trans (Nat.sub_le _ _) hs) hends
        split at hr
        · rename_i hpos
          cases hr
          exact ⟨hpos, ht.kept⟩
        · cases hr
      · exact ih hr
    · cases hr

end Matchers

section Characters

variable {ignoreCase : Bool} {i pos stop : Nat}

theorem lt_size_of_get? {c : Char} (h : text.get? i = some c) : i < text.size :=
  (Array.getElem?_eq_some_iff.1 h).1

theorem literalUpToCase_le_size {image : List Char} (hpos : pos ≤ text.size)
    (h : literalUpToCase text image pos = some stop) : stop ≤ text.size := by
  induction image generalizing pos with
  | nil =>
    cases h
    exact hpos
  | cons p ps ih =>
    rw [literalUpToCase] at h
    split at h
    · rename_i hget
      split at h
      · exact ih (lt_size_of_get? hget) h
      · cases h
    · cases h

theorem readAgain_le_size {n : Nat} (hpos : pos ≤ text.size)
    (h : readAgain text ignoreCase n i pos = some stop) : stop ≤ text.size := by
  induction n generalizing i pos with
  | zero =>
    cases h
    exact hpos
  | succ n ih =>
    rw [readAgain] at h
    split at h
    · rename_i hget
      obtain ⟨-, h⟩ := Option.ite_none_right_eq_some.1 h
      exact ih (lt_size_of_get? hget) h
    · cases h

theorem readGroups_le_size {s : State} {groups : List Nat} (hs : s.pos ≤ text.size)
    (h : readGroups text ignoreCase s groups = some stop) : stop ≤ text.size := by
  induction groups with
  | nil => cases h
  | cons n groups ih =>
    rw [readGroups] at h
    split at h
    · split at h
      · rename_i hread
        cases h
        exact readAgain_le_size hs hread
      · exact ih h
    · exact ih h

theorem goesOnward_foldedRun (n : Nat) (run : List Char) :
    GoesOnward resets looksBack text (foldedRun text n run) := by
  induction n generalizing run with
  | zero =>
    intro s r k hs hr
    cases run with
    | nil => exact ⟨_, .refl hs, hr⟩
    | cons p ps => cases hr
  | succ n ih =>
    intro s r k hs hr
    cases run with
    | nil => exact ⟨_, .refl hs, hr⟩
    | cons p ps =>
      have hnext {rest : List Char} {pos : Nat} (hle : s.pos ≤ pos) (hsize : pos ≤ text.size)
          (hr : foldedRun text n rest { s with pos := pos } k = some r) :
          ∃ t, Onward resets looksBack text s t ∧ k t = some r := by
        obtain ⟨t, ht, hr⟩ := ih rest hsize hr
        exact ⟨t, (Onward.moved hle hsize).trans ht, hr⟩
      rw [foldedRun] at hr
      split at hr
      · cases hr
      · rename_i hget
        have hlt := lt_size_of_get? hget
        simp only [Option.orElse_eq_orElse, Option.orElse_eq_or, Option.or_eq_some_iff] at hr
        obtain hr | ⟨-, hr | ⟨-, hr⟩⟩ := hr
        · obtain ⟨-, hr⟩ := Option.ite_none_right_eq_some.1 hr
          exact hnext (Nat.le_succ _) hlt hr
        · split at hr
          · split at hr
            · exact hnext (Nat.le_succ _) hlt hr
            · cases hr
          · cases hr
        · split at hr
          · split at hr
            · rename_i hliteral
              exact hnext (literalUpToCase_le hliteral) (literalUpToCase_le_size hs hliteral) hr
            · cases hr
          · cases hr

theorem goesOnward_foldedRuns (texts : List (List Char)) :
    GoesOnward resets looksBack text (foldedRuns text texts) := by
  intro s r k hs hr
  rw [foldedRuns] at hr
  split at hr
  · cases hr
  · obtain ⟨run, -, hr⟩ := List.exists_of_findSome?_eq_some hr
    split at hr
    · obtain ⟨-, hr⟩ := Option.ite_none_right_eq_some.1 hr
      exact goesOnward_foldedRun _ _ hs hr
    · cases hr

end Characters

/-- A tree hands on only later states, if the groups it calls do. -/
theorem goesOnward_run {subject : Subject} {callee : GroupRef → Matcher} {a : Node}
    (ha : a.keepsTo resets looksBack)
    (hcallee : ∀ target, GoesOnward resets looksBack subject.text (callee target)) :
    GoesOnward resets looksBack subject.text (run subject callee a) := by
  induction a with
  | empty => exact fun hs hr ↦ ⟨_, .refl hs, hr⟩
  | set set =>
    intro s r k hs hr
    rw [run] at hr
    split at hr
    · rename_i hget
      obtain ⟨-, hr⟩ := Option.ite_none_right_eq_some.1 hr
      exact ⟨_, .moved (Nat.le_succ _) (lt_size_of_get? hget), hr⟩
    · cases hr
  | folded run => exact goesOnward_foldedRun _ _
  | foldedAny runs => exact goesOnward_foldedRuns _
  | seq a b iha ihb =>
    obtain ⟨ha, hb⟩ := (Bool.and_eq_true _ _).mp ha
    exact fun hs hr ↦ GoesOnward.bind (iha ha) (ihb hb) hs hr
  | alt a b iha ihb =>
    obtain ⟨ha, hb⟩ := (Bool.and_eq_true _ _).mp ha
    intro s r k hs hr
    rw [run] at hr
    split at hr
    · rename_i hfirst
      cases hr
      exact iha ha hs hfirst
    · exact ihb hb hs hr
  | group n body ih =>
    intro s r k hs hr
    rw [run] at hr
    obtain ⟨t, ht, hr⟩ := ih ha (s := { s with events := .entered n s.pos :: s.events }) hs hr
    exact ⟨_, ht.grouped, hr⟩
  | atomic body ih =>
    intro s r k hs hr
    rw [run] at hr
    split at hr
    · rename_i hbody
      exact ⟨_, GoesOnward.some (ih ha) hs hbody, hr⟩
    · cases hr
  | repetition body low high greedy ih =>
    intro s r k hs hr
    rw [run] at hr
    obtain ⟨t, ht, hr⟩ := goesOnward_times (ih ha) low hs hr
    cases high with
    | some high =>
      obtain ⟨u, hu, hr⟩ := goesOnward_upTo (ih ha) greedy _ ht.le_size hr
      exact ⟨u, ht.trans hu, hr⟩
    | none =>
      obtain ⟨u, hu, hr⟩ := goesOnward_anyTimes (ih ha) greedy _ ht.le_size hr
      exact ⟨u, ht.trans hu, hr⟩
  | look direction negated body ih =>
    intro s r k hs hr
    cases direction with
    | ahead =>
      rw [run] at hr
      split at hr
      · rename_i hbody
        split at hr
        · cases hr
        · exact ⟨_, (GoesOnward.some (ih ha) hs hbody).moved_back hs, hr⟩
      · obtain ⟨-, hr⟩ := Option.ite_none_right_eq_some.1 hr
        exact ⟨_, .refl hs, hr⟩
    | behind =>
      obtain ⟨hback, ha⟩ := (Bool.and_eq_true _ _).mp ha
      rw [run] at hr
      dsimp only at hr
      split at hr
      · rename_i hbody
        split at hr
        · cases hr
        · -- The body starts further back, and its groups lie there.
          obtain ⟨hpos, hkept⟩ := endingAt_onward (ih ha) hs hbody
          refine ⟨_, ⟨Nat.le_of_eq hpos.symm, hpos ▸ hs, hkept, fun hl ↦ ?_⟩, hr⟩
          rw [hback] at hl
          cases hl
      · obtain ⟨-, hr⟩ := Option.ite_none_right_eq_some.1 hr
        exact ⟨_, .refl hs, hr⟩
  | backref groups ignoreCase =>
    intro s r k hs hr
    rw [run] at hr
    split at hr
    · rename_i hread
      exact ⟨_, .moved (readGroups_le hread) (readGroups_le_size hs hread), hr⟩
    · cases hr
  | call target => exact hcallee target
  | anchor a =>
    intro s r k hs hr
    rw [run] at hr
    obtain ⟨-, hr⟩ := Option.ite_none_right_eq_some.1 hr
    exact ⟨_, .refl hs, hr⟩
  | keep =>
    intro s r k hs hr
    rw [run] at hr
    exact ⟨_, .reset hs ha, hr⟩

theorem goesOnward_runCall (subject : Subject) {callable : List (GroupRef × Node)}
    (h : ∀ entry ∈ callable, entry.2.keepsTo resets looksBack) (depth : Nat) (target : GroupRef) :
    GoesOnward resets looksBack subject.text (runCall subject callable depth target) := by
  induction depth generalizing target with
  | zero =>
    intro s r k _ hr
    cases hr
  | succ depth ih =>
    intro s r k hs hr
    rw [runCall] at hr
    split at hr
    · rename_i body hbody
      obtain ⟨before, after, hentries, -⟩ := List.lookup_eq_some_iff.1 hbody
      exact goesOnward_run (h (target, body) (by simp [hentries])) ih hs hr
    · cases hr

namespace Expr

def keepsTo (e : Expr) (resets looksBack : Bool) : Bool :=
  e.root.keepsTo resets looksBack && e.callable.all fun entry ↦ entry.2.keepsTo resets looksBack

variable {e : Expr} {start pos searchStart : Nat}

theorem finalState?_onward (he : e.keepsTo resets looksBack) (hpos : pos ≤ text.size) {s : State}
    (h : e.finalState? text searchStart pos = some s) :
    Onward resets looksBack text { pos := pos } s := by
  obtain ⟨hroot, hcallable⟩ := (Bool.and_eq_true _ _).mp he
  have hcalls := goesOnward_runCall ⟨text, searchStart⟩ (List.all_eq_true.1 hcallable)
    (e.callDepth text)
  exact GoesOnward.some (goesOnward_run hroot hcalls) hpos h

/-- What is found lies within the text, behind the start of the search, if the match is not
reset. -/
theorem find?_range (he : e.keepsTo false true) {first last : Nat}
    (h : e.find? text start = some (first, last)) :
    start ≤ first ∧ first ≤ last ∧ last ≤ text.size := by
  obtain ⟨spans, hspans, hhead⟩ := Option.bind_eq_some_iff.1 h
  obtain ⟨p, hp, hsize, hmatch, -⟩ := captures?_eq_some hspans
  obtain ⟨s, hs, rfl⟩ := Option.map_eq_some_iff.1 hmatch
  have honward := finalState?_onward he hsize hs
  have hkept : s.kept = none := honward.kept rfl
  have hle : p ≤ s.pos := honward.pos_le
  cases hhead
  rw [hkept, Option.getD_none]
  exact ⟨by omega, Nat.min_le_right _ _, honward.le_size⟩

theorem findFrom_inOrder (he : e.keepsTo false true) {fuel place : Nat} {previousEnd : Option Nat}
    (hplace : place ≤ start) (hsize : place ≤ text.size) :
    Text.InOrder (e.findFrom text fuel start previousEnd) place text.size := by
  induction fuel generalizing start place previousEnd with
  | zero => exact hsize
  | succ fuel ih =>
    rw [findFrom]
    split
    · exact hsize
    · rename_i hfound
      obtain ⟨hfirst, hlast, hend⟩ := find?_range he hfound
      split
      -- An empty match at the end of the one before is passed over.
      · exact ih (by omega) hsize
      · exact ⟨by omega, hlast, ih (Nat.le_refl _) hend⟩

/-- Words are found one after another by a pattern that does not reset the match. -/
theorem findAll_inOrder (he : e.keepsTo false true) (text : Text) :
    Text.InOrder (e.findAll text) 0 text.size :=
  findFrom_inOrder he (Nat.zero_le _) (Nat.zero_le _)

/-- Every group of a match lies within the text, behind the start of the search, if the match does
not look back. -/
theorem captures?_range (he : e.keepsTo true false) {spans : List (Option Span)} {n first last : Nat}
    (hn : 0 < n) (h : e.captures? text start = some spans)
    (hspan : spans[n]?.join = some (first, last)) :
    start ≤ first ∧ first ≤ last ∧ last ≤ text.size := by
  obtain ⟨p, hp, hsize, hmatch, -⟩ := captures?_eq_some h
  obtain ⟨s, hs, rfl⟩ := Option.map_eq_some_iff.1 hmatch
  obtain ⟨events, hevents, hspans⟩ := (finalState?_onward he hsize hs).groups rfl
  rw [List.append_nil] at hevents
  rw [getElem?_spans_join _ _ _ hn] at hspan
  obtain ⟨-, hspan⟩ := Option.ite_none_right_eq_some.1 hspan
  rw [State.group, hevents] at hspan
  obtain ⟨hnone, -⟩ | ⟨a, b, hstart, hstop, hle⟩ := hspans n
  · rw [hnone] at hspan
    cases hspan
  · rw [hstart, hstop] at hspan
    cases hspan
    exact ⟨Nat.le_trans hp hle.1, hle.2⟩

end Expr

end SyntaxHighlight.Regex
