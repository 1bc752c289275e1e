import SyntaxHighlight.Regex.Compile

/-!
A tree whose groups are numbered from further up, as it stands behind other groups, matches as
before. Only what a match says about groups is found under the higher numbers.
-/
namespace SyntaxHighlight.Regex

/-- The tree behind `offset` more groups. A name may by then also stand for groups ahead of it. -/
inductive Raised (offset : Nat) : Node → Node → Prop
  | empty : Raised offset .empty .empty
  | set (s : CharSet) : Raised offset (.set s) (.set s)
  | folded (text : List Char) : Raised offset (.folded text) (.folded text)
  | foldedAny (texts : List (List Char)) : Raised offset (.foldedAny texts) (.foldedAny texts)
  | anchor (a : Anchor) : Raised offset (.anchor a) (.anchor a)
  | keep : Raised offset .keep .keep
  | call (target target' : GroupRef) : Raised offset (.call target) (.call target')
  | seq {a a' b b' : Node} : Raised offset a a' → Raised offset b b' →
      Raised offset (.seq a b) (.seq a' b')
  | alt {a a' b b' : Node} : Raised offset a a' → Raised offset b b' →
      Raised offset (.alt a b) (.alt a' b')
  | group {n : Nat} {body body' : Node} : 0 < n → Raised offset body body' →
      Raised offset (.group n body) (.group (n + offset) body')
  | atomic {body body' : Node} : Raised offset body body' →
      Raised offset (.atomic body) (.atomic body')
  | repetition {body body' : Node} (low : Nat) (high : Option Nat) (greedy : Bool) :
      Raised offset body body' →
      Raised offset (.repetition body low high greedy) (.repetition body' low high greedy)
  | look {body body' : Node} (direction : Direction) (negated : Bool) : Raised offset body body' →
      Raised offset (.look direction negated body) (.look direction negated body')
  | backref {groups ahead : List Nat} (ignoreCase : Bool) : (∀ n ∈ groups, 0 < n) →
      (∀ n ∈ ahead, 0 < n ∧ n ≤ offset) →
      Raised offset (.backref groups ignoreCase)
        (.backref (groups.map (· + offset) ++ ahead) ignoreCase)

/-- A tree that calls no group and resets no match, with its groups numbered up to `count`. -/
def Node.isPlain (count : Nat) : Node → Bool
  | .seq a b | .alt a b => a.isPlain count && b.isPlain count
  | .group n body => n ≤ count && body.isPlain count
  | .atomic body | .repetition body .. | .look _ _ body => body.isPlain count
  | .call _ | .keep => false
  | _ => true

/-- A tree that refers to no group up to `count`. -/
def Node.refersAbove (count : Nat) : Node → Bool
  | .seq a b | .alt a b => a.refersAbove count && b.refersAbove count
  | .group _ body | .atomic body | .repetition body .. | .look _ _ body => body.refersAbove count
  | .backref groups _ => groups.all (count < ·)
  | _ => true

theorem Raised.width_eq {offset : Nat} {a a' : Node} (h : Raised offset a a')
    {called : GroupRef → Nat × Option Nat} {count : Nat} (hplain : a.isPlain count) :
    a'.width called = a.width called := by
  induction h with
  | call => cases hplain
  | seq _ _ iha ihb | alt _ _ iha ihb =>
    obtain ⟨ha, hb⟩ := (Bool.and_eq_true _ _).mp hplain
    simp only [Node.width, iha ha, ihb hb]
  | group _ _ ih =>
    obtain ⟨-, hb⟩ := (Bool.and_eq_true _ _).mp hplain
    simp only [Node.width, ih hb]
  | atomic _ ih | repetition _ _ _ _ ih => simp only [Node.width, ih hplain]
  | _ => rfl

namespace CaptureEvent

def group : CaptureEvent → Nat
  | .entered n _ | .left n _ _ => n

def raise (offset : Nat) : CaptureEvent → CaptureEvent
  | .entered n start => .entered (n + offset) start
  | .left n start stop => .left (n + offset) start stop

end CaptureEvent

/-- Nothing has happened but to the first groups, up to `count`. -/
def OnlyUpTo (count : Nat) (events : List CaptureEvent) : Prop :=
  ∀ e ∈ events, e.group ≤ count

/-- All that has happened is that one group was entered. -/
def OnlyEntered (group : Nat) (events : List CaptureEvent) : Prop :=
  ∀ e ∈ events, ∃ pos, e = .entered group pos

variable {offset n : Nat} {events base : List CaptureEvent}

theorem OnlyEntered.onlyUpTo (h : OnlyEntered n events) : OnlyUpTo n events := by
  intro e he
  obtain ⟨pos, rfl⟩ := h e he
  exact Nat.le_refl n

theorem groupStart_raise (hbase : OnlyUpTo offset base) (hn : 0 < n) :
    groupStart (n + offset) (events.map (.raise offset) ++ base) = groupStart n events := by
  induction events with
  | nil =>
    induction base with
    | nil => rfl
    | cons e base ih =>
      have hle := hbase e List.mem_cons_self
      have ih := ih fun e h ↦ hbase e (List.mem_cons_of_mem _ h)
      cases e with
      | entered m | left m =>
        have hne : m ≠ n + offset := by
          simp only [CaptureEvent.group] at hle
          omega
        simp only [List.map_nil, List.nil_append, groupStart, if_neg hne]
        exact ih
  | cons e events ih => cases e <;> simp [groupStart, CaptureEvent.raise, ih]

theorem groupStop_raise (hbase : OnlyUpTo offset base) (hn : 0 < n) :
    groupStop (n + offset) (events.map (.raise offset) ++ base) = groupStop n events := by
  induction events with
  | nil =>
    induction base with
    | nil => rfl
    | cons e base ih =>
      have hle := hbase e List.mem_cons_self
      have ih := ih fun e h ↦ hbase e (List.mem_cons_of_mem _ h)
      cases e with
      | entered => exact ih
      | left m =>
        have hne : m ≠ n + offset := by
          simp only [CaptureEvent.group] at hle
          omega
        simp only [List.map_nil, List.nil_append, groupStop, if_neg hne]
        exact ih
  | cons e events ih => cases e <;> simp [groupStop, CaptureEvent.raise, ih]

theorem groupStop_eq_none (h : ∀ start stop, .left n start stop ∉ events) :
    groupStop n events = none := by
  induction events with
  | nil => rfl
  | cons e events ih =>
    have ih := ih fun start stop hmem ↦ h start stop (List.mem_cons_of_mem _ hmem)
    cases e with
    | entered => exact ih
    | left m start stop =>
      have hne : m ≠ n := by
        rintro rfl
        exact h start stop List.mem_cons_self
      rw [groupStop, if_neg hne]
      exact ih

/-- Two states of one match, the second behind `offset` groups. The events from before the match
come at the end. -/
structure Alongside (offset count : Nat) (base : List CaptureEvent) (least : Nat)
    (s s' : State) : Prop where
  pos : s'.pos = s.pos
  least : least ≤ s.pos
  kept : s.kept = none
  kept' : s'.kept = none
  events : s'.events = s.events.map (.raise offset) ++ base
  numbered : ∀ e ∈ s.events, 0 < e.group ∧ e.group ≤ count

namespace Alongside

variable {count least least' pos : Nat} {s s' : State}

theorem eq_of_zero (h : Alongside 0 count [] least s s') : s' = s := by
  have hraise : CaptureEvent.raise 0 = id := by
    funext e
    cases e <;> rfl
  obtain ⟨hpos, -, hkept, hkept', hevents, -⟩ := h
  cases s
  cases s'
  simp_all

theorem moved (h : Alongside offset count base least s s') (hpos : least' ≤ pos) :
    Alongside offset count base least' { s with pos := pos } { s' with pos := pos } :=
  ⟨rfl, hpos, h.kept, h.kept', h.events, h.numbered⟩

theorem lowered (h : Alongside offset count base least s s') (hleast : least' ≤ s.pos) :
    Alongside offset count base least' s s' :=
  ⟨h.pos, hleast, h.kept, h.kept', h.events, h.numbered⟩

theorem noted (h : Alongside offset count base least s s') {e : CaptureEvent} (hpos : 0 < e.group)
    (hle : e.group ≤ count) :
    Alongside offset count base least { s with events := e :: s.events }
      { s' with events := e.raise offset :: s'.events } := by
  refine ⟨h.pos, h.least, h.kept, h.kept', ?_, ?_⟩
  · simp [h.events]
  · intro e' he'
    obtain rfl | he' := List.mem_cons.1 he'
    · exact ⟨hpos, hle⟩
    · exact h.numbered e' he'

theorem group_raise (h : Alongside offset count base least s s')
    (hbase : OnlyUpTo offset base) (hn : 0 < n) : s'.group (n + offset) = s.group n := by
  simp only [State.group, h.events, groupStart_raise hbase hn, groupStop_raise hbase hn]

/-- In the match neither the groups ahead have been left, nor any after its last one. -/
theorem group_eq_none (h : Alongside offset count base least s s') (hbase : OnlyEntered offset base)
    (hn : n ≤ offset ∨ count + offset < n) : s'.group n = none := by
  have hnone : groupStop n s'.events = none := by
    refine groupStop_eq_none fun start stop he ↦ ?_
    rw [h.events] at he
    obtain he | he := List.mem_append.1 he
    · obtain ⟨e, hmem, he⟩ := List.mem_map.1 he
      have hle := h.numbered e hmem
      cases e <;> cases he
      simp only [CaptureEvent.group] at hle
      omega
    · obtain ⟨pos, he⟩ := hbase _ he
      cases he
  rw [State.group, hnone]
  split <;> simp_all

end Alongside

/-- Two matchers that lead from states alongside each other to such states again, and so to
results that correspond. -/
def Follows (offset count : Nat) (base : List CaptureEvent) (m m' : Matcher) : Prop :=
  ∀ {least : Nat} {s s' : State} {Q : State → State → Prop} {k k' : State → Option State},
    Alongside offset count base least s s' →
    (∀ t t', Alongside offset count base least t t' → Option.Rel Q (k t) (k' t')) →
    Option.Rel Q (m s k) (m' s' k')

section Matchers

variable {count : Nat} {m m' : Matcher} {Q : State → State → Prop}

theorem rel_orElse {x x' y y' : Option State} : Option.Rel Q x x' → Option.Rel Q y y' →
    Option.Rel Q (match x with | some r => some r | none => y)
      (match x' with | some r => some r | none => y') := by
  intro hx hy
  cases hx with
  | some h => exact .some h
  | none => exact hy

theorem rel_hOrElse {x x' y y' : Option State} (hx : Option.Rel Q x x') (hy : Option.Rel Q y y') :
    Option.Rel Q (x <|> y) (x' <|> y') := by
  cases hx with
  | some h => exact .some h
  | none => exact hy

theorem rel_findSome? {α : Type} {f f' : α → Option State} (h : ∀ a, Option.Rel Q (f a) (f' a))
    (as : List α) : Option.Rel Q (as.findSome? f) (as.findSome? f') := by
  induction as with
  | nil => exact .none
  | cons a as ih =>
    have ha := h a
    rw [List.findSome?_cons, List.findSome?_cons]
    generalize f a = x, f' a = x' at ha
    cases ha with
    | some h => exact .some h
    | none => exact ih

theorem follows_times (h : Follows offset count base m m') (n : Nat) :
    Follows offset count base (times m n) (times m' n) := by
  induction n with
  | zero => exact fun hs hk ↦ hk _ _ hs
  | succ n ih =>
    intro least s s' Q k k' hs hk
    rw [times, times]
    exact h hs fun t t' ht ↦ ih ht hk

theorem follows_upTo (h : Follows offset count base m m') (greedy : Bool) (n : Nat) :
    Follows offset count base (upTo m greedy n) (upTo m' greedy n) := by
  induction n with
  | zero => exact fun hs hk ↦ hk _ _ hs
  | succ n ih =>
    intro least s s' Q k k' hs hk
    rw [upTo, upTo]
    have hmore : Option.Rel Q (m s fun t ↦ upTo m greedy n t k)
        (m' s' fun t ↦ upTo m' greedy n t k') := h hs fun t t' ht ↦ ih ht hk
    have hdone := hk s s' hs
    cases greedy with
    | true => exact rel_orElse hmore hdone
    | false => exact rel_orElse hdone hmore

theorem follows_anyTimes (h : Follows offset count base m m') (greedy : Bool) (n : Nat) :
    Follows offset count base (anyTimes m greedy n) (anyTimes m' greedy n) := by
  induction n with
  | zero => exact fun hs hk ↦ hk _ _ hs
  | succ n ih =>
    intro least s s' Q k k' hs hk
    rw [anyTimes, anyTimes]
    have hmore : Option.Rel Q
        (m s fun t ↦ if t.pos = s.pos then k t else anyTimes m greedy n t k)
        (m' s' fun t ↦ if t.pos = s'.pos then k' t else anyTimes m' greedy n t k') := by
      refine h hs fun t t' ht ↦ ?_
      rw [ht.pos, hs.pos]
      split
      · exact hk t t' ht
      · exact ih ht hk
    have hdone := hk s s' hs
    cases greedy with
    | true => exact rel_orElse hmore hdone
    | false => exact rel_orElse hdone hmore

theorem rel_endingAt (h : Follows offset count base m m') {least : Nat} {s s' : State}
    (hs : Alongside offset count base least s s') (n distance : Nat) :
    Option.Rel (Alongside offset count base least) (endingAt m s n distance)
      (endingAt m' s' n distance) := by
  induction n generalizing distance with
  | zero => exact .none
  | succ n ih =>
    rw [endingAt, endingAt, hs.pos]
    split
    · refine rel_orElse (h (hs.moved (Nat.zero_le _)) fun t t' ht ↦ ?_) (ih _)
      rw [ht.pos]
      split
      · rename_i hpos
        exact .some (ht.lowered (hpos ▸ hs.least))
      · exact .none
    · exact .none

theorem literalUpToCase_le {text : Text} {image : List Char} {pos stop : Nat}
    (h : literalUpToCase text image pos = some stop) : pos ≤ stop := by
  induction image generalizing pos with
  | nil =>
    cases h
    exact Nat.le_refl _
  | cons p ps ih =>
    rw [literalUpToCase] at h
    split at h
    · split at h
      · exact Nat.le_of_succ_le (ih h)
      · cases h
    · cases h

theorem follows_foldedRun (text : Text) (n : Nat) (run : List Char) :
    Follows offset count base (foldedRun text n run) (foldedRun text n run) := by
  induction n generalizing run with
  | zero =>
    intro least s s' Q k k' hs hk
    cases run with
    | nil => exact hk _ _ hs
    | cons p ps => exact .none
  | succ n ih =>
    intro least s s' Q k k' hs hk
    cases run with
    | nil => exact hk _ _ hs
    | cons p ps =>
      have hnext (rest : List Char) {pos : Nat} (hpos : s.pos ≤ pos) :
          Option.Rel Q (foldedRun text n rest { s with pos := pos } k)
            (foldedRun text n rest { s' with pos := pos } k') :=
        ih rest (hs.moved (Nat.le_trans hs.least hpos)) hk
      rw [foldedRun, foldedRun, hs.pos]
      split
      · exact .none
      · refine rel_hOrElse ?_ (rel_hOrElse ?_ ?_)
        · split
          · exact hnext _ (Nat.le_succ _)
          · exact .none
        · split
          · split
            · exact hnext _ (Nat.le_succ _)
            · exact .none
          · exact .none
        · split
          · split
            · rename_i hlit
              exact hnext _ (literalUpToCase_le hlit)
            · exact .none
          · exact .none

theorem follows_foldedRuns (text : Text) (texts : List (List Char)) :
    Follows offset count base (foldedRuns text texts) (foldedRuns text texts) := by
  intro least s s' Q k k' hs hk
  rw [foldedRuns, foldedRuns, hs.pos]
  split
  · exact .none
  · refine rel_findSome? (fun run ↦ ?_) texts
    split
    · split
      · exact follows_foldedRun text _ _ hs hk
      · exact .none
    · exact .none

end Matchers

theorem readGroups_append {text : Text} {ignoreCase : Bool} {s : State} {groups ahead : List Nat}
    (h : ∀ n ∈ ahead, s.group n = none) :
    readGroups text ignoreCase s (groups ++ ahead) = readGroups text ignoreCase s groups := by
  induction groups with
  | nil =>
    induction ahead with
    | nil => rfl
    | cons n ahead ih =>
      have hn : s.group n = none := h n List.mem_cons_self
      have ih := ih fun m hm ↦ h m (List.mem_cons_of_mem _ hm)
      simp only [List.nil_append, readGroups, hn] at ih ⊢
      exact ih
  | cons n groups ih =>
    rw [List.cons_append, readGroups, readGroups, ih]

theorem readGroups_raise {text : Text} {ignoreCase : Bool} {s s' : State} {groups : List Nat}
    (hpos : s'.pos = s.pos) (h : ∀ n ∈ groups, s'.group (n + offset) = s.group n) :
    readGroups text ignoreCase s' (groups.map (· + offset)) =
      readGroups text ignoreCase s groups := by
  induction groups with
  | nil => rfl
  | cons n groups ih =>
    rw [List.map_cons, readGroups, readGroups, h n List.mem_cons_self, hpos,
      ih fun m hm ↦ h m (List.mem_cons_of_mem _ hm)]

theorem readAgain_le {text : Text} {ignoreCase : Bool} {n i pos stop : Nat}
    (h : readAgain text ignoreCase n i pos = some stop) : pos ≤ stop := by
  induction n generalizing i pos with
  | zero =>
    cases h
    exact Nat.le_refl _
  | succ n ih =>
    rw [readAgain] at h
    split at h
    · obtain ⟨-, h⟩ := Option.ite_none_right_eq_some.1 h
      exact Nat.le_of_succ_le (ih h)
    · cases h

theorem readGroups_le {text : Text} {ignoreCase : Bool} {s : State} {groups : List Nat} {stop : Nat}
    (h : readGroups text ignoreCase s groups = some stop) : s.pos ≤ stop := by
  induction groups with
  | nil => cases h
  | cons n groups ih =>
    rw [readGroups] at h
    split at h
    · split at h
      · rename_i hread
        cases h
        exact readAgain_le hread
      · exact ih h
    · exact ih h

/-- A raised tree matches alongside the tree it was raised from. If groups have been left before, it
must not refer to these, as a name may stand for them too. -/
theorem Raised.follows {a a' : Node} (h : Raised offset a a') {count : Nat}
    (hplain : a.isPlain count) (hbase : OnlyUpTo offset base)
    (hahead : OnlyEntered offset base ∨ a'.refersAbove offset) (subject : Subject)
    (callee callee' : GroupRef → Matcher) :
    Follows offset count base (run subject callee a) (run subject callee' a') := by
  -- Numbers of groups matter to `group` and `backref` alone. In all other cases states alongside
  -- each other are handed on to such states.
  induction h with
  | empty => exact fun hs hk ↦ hk _ _ hs
  | set set =>
    intro least s s' Q k k' hs hk
    rw [run, run, hs.pos]
    split
    · split
      · exact hk _ _ (hs.moved (Nat.le_succ_of_le hs.least))
      · exact .none
    · exact .none
  | folded text =>
    intro least s s' Q k k' hs hk
    rw [run, run]
    exact follows_foldedRun _ _ _ hs hk
  | foldedAny texts =>
    intro least s s' Q k k' hs hk
    rw [run, run]
    exact follows_foldedRuns _ _ hs hk
  | anchor a =>
    intro least s s' Q k k' hs hk
    rw [run, run, hs.pos]
    split
    · exact hk _ _ hs
    · exact .none
  | keep | call => cases hplain
  | seq _ _ iha ihb =>
    obtain ⟨ha, hb⟩ := (Bool.and_eq_true _ _).mp hplain
    have hfirst := hahead.imp_right fun h ↦ ((Bool.and_eq_true _ _).mp h).1
    have hsecond := hahead.imp_right fun h ↦ ((Bool.and_eq_true _ _).mp h).2
    intro least s s' Q k k' hs hk
    rw [run, run]
    exact iha ha hfirst hs fun t t' ht ↦ ihb hb hsecond ht hk
  | alt _ _ iha ihb =>
    obtain ⟨ha, hb⟩ := (Bool.and_eq_true _ _).mp hplain
    have hfirst := hahead.imp_right fun h ↦ ((Bool.and_eq_true _ _).mp h).1
    have hsecond := hahead.imp_right fun h ↦ ((Bool.and_eq_true _ _).mp h).2
    intro least s s' Q k k' hs hk
    rw [run, run]
    exact rel_orElse (iha ha hfirst hs hk) (ihb hb hsecond hs hk)
  | @group n _ _ hn _ ih =>
    obtain ⟨hle, hb⟩ := (Bool.and_eq_true _ _).mp hplain
    have hle : n ≤ count := of_decide_eq_true hle
    intro least s s' Q k k' hs hk
    rw [run, run]
    obtain ⟨pos, kept, events⟩ := s'
    obtain rfl : pos = s.pos := hs.pos
    have hin := hs.noted (e := .entered n s.pos) hn hle
    refine ih hb hahead hin fun t t' ht ↦ ?_
    obtain ⟨stop, kept, events⟩ := t'
    obtain rfl : stop = t.pos := ht.pos
    exact hk _ _ (ht.noted (e := .left n s.pos t.pos) hn hle)
  | atomic _ ih =>
    intro least s s' Q k k' hs hk
    have hbody : Option.Rel (Alongside offset count base least) (run subject callee _ s some)
        (run subject callee' _ s' some) := ih hplain hahead hs fun t t' ht ↦ .some ht
    rw [run, run]
    generalize run subject callee _ s some = x, run subject callee' _ s' some = x' at hbody
    cases hbody with
    | some ht => exact hk _ _ ht
    | none => exact .none
  | repetition low high greedy _ ih =>
    intro least s s' Q k k' hs hk
    rw [run, run]
    refine follows_times (ih hplain hahead) low hs fun t t' ht ↦ ?_
    cases high with
    | some high => exact follows_upTo (ih hplain hahead) greedy _ ht hk
    | none =>
      rw [ht.pos]
      exact follows_anyTimes (ih hplain hahead) greedy _ ht hk
  | look direction negated hraised ih =>
    intro least s s' Q k k' hs hk
    cases direction with
    | ahead =>
      have hbody : Option.Rel (Alongside offset count base least) (run subject callee _ s some)
          (run subject callee' _ s' some) := ih hplain hahead hs fun t t' ht ↦ .some ht
      rw [run, run, hs.pos]
      generalize run subject callee _ s some = x, run subject callee' _ s' some = x' at hbody
      cases hbody with
      | some ht =>
        cases negated with
        | true => exact .none
        | false => exact hk _ _ (ht.moved hs.least)
      | none =>
        cases negated with
        | true => exact hk _ _ hs
        | false => exact .none
    | behind =>
      rw [run, run, hraised.width_eq hplain, hs.pos]
      have hbody := rel_endingAt (ih hplain hahead) hs
      generalize Node.width _ _ = width
      have hbody := hbody ((width.2.getD s.pos) + 1 - width.1) width.1
      dsimp only
      generalize endingAt (run subject callee _) s _ _ = x,
        endingAt (run subject callee' _) s' _ _ = x' at hbody ⊢
      cases hbody with
      | some ht =>
        cases negated with
        | true => exact .none
        | false => exact hk _ _ ht
      | none =>
        cases negated with
        | true => exact hk _ _ hs
        | false => exact .none
  | @backref groups ahead ignoreCase hpos hle =>
    intro least s s' Q k k' hs hk
    have hunset (n : Nat) (hn : n ∈ ahead) : s'.group n = none := by
      have hn' := hle n hn
      obtain hentered | habove := hahead
      · exact hs.group_eq_none hentered (.inl hn'.2)
      · rw [Node.refersAbove, List.all_eq_true] at habove
        have hlt := of_decide_eq_true (habove n (List.mem_append_right _ hn))
        omega
    rw [run, run, readGroups_append hunset,
      readGroups_raise hs.pos fun n hn ↦ hs.group_raise hbase (hpos n hn)]
    split
    · rename_i hread
      exact hk _ _ (hs.moved (Nat.le_trans hs.least (readGroups_le hread)))
    · exact .none

end SyntaxHighlight.Regex
