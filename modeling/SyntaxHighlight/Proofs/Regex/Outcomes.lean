import SyntaxHighlight.Regex.Match

/-!
A match hands one outcome after another to what follows, until one is accepted. Which outcomes these
are, and their order, is the same whatever follows.
-/
namespace SyntaxHighlight.Regex

open Unicode

/-- The states of some list are tried one by one, and the first that is accepted is taken. -/
def Tries (found : (State → Option State) → Option State) : Prop :=
  ∃ outcomes : List State, ∀ k, found k = outcomes.findSome? k

namespace Tries

variable {found found' : (State → Option State) → Option State}

theorem one (s : State) : Tries fun k ↦ k s :=
  ⟨[s], fun k ↦ by cases h : k s <;> simp [h]⟩

theorem nothing : Tries fun _ ↦ none :=
  ⟨[], fun _ ↦ rfl⟩

theorem orElse (h : Tries found) (h' : Tries found') : Tries fun k ↦
    match found k with
    | some r => some r
    | none => found' k := by
  obtain ⟨outcomes, hfound⟩ := h
  obtain ⟨outcomes', hfound'⟩ := h'
  refine ⟨outcomes ++ outcomes', fun k ↦ ?_⟩
  dsimp only
  rw [List.findSome?_append, hfound, hfound']
  cases outcomes.findSome? k <;> rfl

theorem hOrElse (h : Tries found) (h' : Tries found') : Tries fun k ↦ found k <|> found' k := by
  obtain ⟨outcomes, hfound⟩ := h
  obtain ⟨outcomes', hfound'⟩ := h'
  refine ⟨outcomes ++ outcomes', fun k ↦ ?_⟩
  dsimp only
  rw [List.findSome?_append, hfound, hfound', Option.orElse_eq_orElse]
  cases outcomes.findSome? k <;> rfl

theorem ite (c : Prop) [Decidable c] (h : Tries found) (h' : Tries found') :
    Tries fun k ↦ if c then found k else found' k := by
  by_cases hc : c
  · simpa only [if_pos hc] using h
  · simpa only [if_neg hc] using h'

theorem findSome {α : Type} {f : α → (State → Option State) → Option State}
    (h : ∀ a, Tries (f a)) (as : List α) : Tries fun k ↦ as.findSome? fun a ↦ f a k := by
  induction as with
  | nil => exact .nothing
  | cons a as ih =>
    obtain ⟨outcomes, hfound⟩ := (h a).orElse ih
    refine ⟨outcomes, fun k ↦ Eq.trans ?_ (hfound k)⟩
    dsimp only
    rw [List.findSome?_cons]
    cases f a k <;> rfl

theorem bind (h : Tries found) {m : Matcher} (hm : ∀ s, Tries (m s)) :
    Tries fun k ↦ found fun s ↦ m s k := by
  obtain ⟨outcomes, hfound⟩ := h
  simp only [hfound]
  exact findSome hm outcomes

end Tries

section Matchers

variable {m : Matcher}

theorem tries_times (h : ∀ s, Tries (m s)) (n : Nat) (s : State) : Tries (times m n s) := by
  induction n generalizing s with
  | zero => exact .one s
  | succ n ih => exact (h s).bind ih

theorem tries_upTo (h : ∀ s, Tries (m s)) (greedy : Bool) (n : Nat) (s : State) :
    Tries (upTo m greedy n s) := by
  induction n generalizing s with
  | zero => exact .one s
  | succ n ih =>
    cases greedy with
    | true => exact ((h s).bind ih).orElse (.one s)
    | false => exact (Tries.one s).orElse ((h s).bind ih)

theorem tries_anyTimes (h : ∀ s, Tries (m s)) (greedy : Bool) (n : Nat) (s : State) :
    Tries (anyTimes m greedy n s) := by
  induction n generalizing s with
  | zero => exact .one s
  | succ n ih =>
    have hmore := (h s).bind fun t ↦ Tries.ite (t.pos = s.pos) (.one t) (ih t)
    cases greedy with
    | true => exact hmore.orElse (.one s)
    | false => exact (Tries.one s).orElse hmore

theorem tries_foldedRun (text : Text) (n : Nat) (run : List Char) (s : State) :
    Tries (foldedRun text n run s) := by
  induction n generalizing run s with
  | zero =>
    cases run with
    | nil => exact .one s
    | cons p ps => exact .nothing
  | succ n ih =>
    cases run with
    | nil => exact .one s
    | cons p ps =>
      simp only [foldedRun]
      cases text.get? s.pos with
      | none => exact .nothing
      | some c =>
        refine Tries.hOrElse (.ite _ (ih _ _) .nothing) (.hOrElse ?_ ?_)
        · cases expandingFold? c with
          | none => exact .nothing
          | some image =>
            dsimp only
            cases dropImage image (p :: ps) with
            | none => exact .nothing
            | some rest => exact ih _ _
        · cases expandingFold? p with
          | none => exact .nothing
          | some image =>
            dsimp only
            cases literalUpToCase text image s.pos with
            | none => exact .nothing
            | some pos => exact ih _ _

theorem tries_foldedRuns (text : Text) (texts : List (List Char)) (s : State) :
    Tries (foldedRuns text texts s) := by
  unfold foldedRuns
  cases text.get? s.pos with
  | none => exact .nothing
  | some c =>
    refine Tries.findSome (fun run ↦ ?_) texts
    cases run with
    | nil => exact .nothing
    | cons p ps => exact .ite _ (tries_foldedRun _ _ _ _) .nothing

end Matchers

/-- What a match finds depends on what follows only in which of its outcomes that accepts. -/
theorem tries_run (subject : Subject) {callee : GroupRef → Matcher}
    (hcallee : ∀ target s, Tries (callee target s)) (a : Node) (s : State) :
    Tries (run subject callee a s) := by
  induction a generalizing s with
  | empty => exact .one s
  | set set =>
    change Tries fun k ↦ run subject callee (.set set) s k
    simp only [run]
    cases subject.text.get? s.pos with
    | none => exact .nothing
    | some c => exact .ite _ (.one _) .nothing
  | folded text => exact tries_foldedRun _ _ _ s
  | foldedAny texts => exact tries_foldedRuns _ _ s
  | seq a b iha ihb => exact (iha s).bind ihb
  | alt a b iha ihb => exact (iha s).orElse (ihb s)
  | group n body ih =>
    exact (ih _).bind fun t ↦ .one { t with events := .left n s.pos t.pos :: t.events }
  -- What follows is not asked within the body, so there is one outcome at most.
  | atomic body ih =>
    change Tries fun k ↦ run subject callee (.atomic body) s k
    simp only [run]
    cases run subject callee body s some with
    | none => exact .nothing
    | some t => exact .one t
  | repetition body low high greedy ih =>
    refine (tries_times ih low s).bind fun t ↦ ?_
    cases high with
    | none => exact tries_anyTimes ih greedy _ t
    | some high => exact tries_upTo ih greedy _ t
  | look direction negated body ih =>
    cases direction with
    | ahead =>
      change Tries fun k ↦ run subject callee (.look .ahead negated body) s k
      simp only [run]
      cases run subject callee body s some with
      | none => exact .ite _ (.one s) .nothing
      | some t => exact .ite _ .nothing (.one _)
    | behind =>
      change Tries fun k ↦ run subject callee (.look .behind negated body) s k
      simp only [run]
      cases endingAt (run subject callee body) s _ _ with
      | none => exact .ite _ (.one s) .nothing
      | some t => exact .ite _ .nothing (.one t)
  | backref groups ignoreCase =>
    change Tries fun k ↦ run subject callee (.backref groups ignoreCase) s k
    simp only [run]
    cases readGroups subject.text ignoreCase s groups with
    | none => exact .nothing
    | some pos => exact .one _
  | call target => exact hcallee target s
  | anchor a => exact .ite _ (.one s) .nothing
  | keep => exact .one _

theorem tries_runCall (subject : Subject) (callable : List (GroupRef × Node)) (depth : Nat)
    (target : GroupRef) (s : State) : Tries (runCall subject callable depth target s) := by
  induction depth generalizing target s with
  | zero => exact .nothing
  | succ depth ih =>
    change Tries fun k ↦ runCall subject callable (depth + 1) target s k
    simp only [runCall]
    cases callable.lookup target with
    | none => exact .nothing
    | some body => exact tries_run subject ih body s

namespace Expr

variable (e : Expr) (text : Text) (searchStart start stop : Nat)

/-- What a match that starts at `start` finds, if something else must accept its outcome. -/
def outcome? (k : State → Option State) : Option State :=
  let subject : Subject := ⟨text, searchStart⟩
  run subject (runCall subject e.callable (e.callDepth text)) e.root { pos := start } k

/-- Whether a match that starts at `start` can end at `stop`. -/
def canEnd : Bool :=
  (e.outcome? text searchStart start fun t ↦ if t.pos = stop then some t else none).isSome

/-- What a match finds, and where it can end, is told by its outcomes. -/
theorem exists_outcomes : ∃ outcomes : List State,
    (∀ k, e.outcome? text searchStart start k = outcomes.findSome? k) ∧
      ∀ stop, e.canEnd text searchStart start stop ↔ ∃ t ∈ outcomes, t.pos = stop := by
  obtain ⟨outcomes, hfound⟩ : Tries (e.outcome? text searchStart start) :=
    tries_run _ (tries_runCall _ _ _) _ _
  refine ⟨outcomes, hfound, fun stop ↦ ?_⟩
  simp [canEnd, hfound, List.findSome?_isSome_iff]

/-- There is a match exactly where one can end somewhere. -/
theorem isSome_matchAt?_iff :
    (e.matchAt? text searchStart start).isSome ↔
      ∃ stop, e.canEnd text searchStart start stop := by
  obtain ⟨outcomes, hfound, hends⟩ := e.exists_outcomes text searchStart start
  have hfinal : e.finalState? text searchStart start = outcomes.findSome? some := hfound some
  rw [matchAt?, hfinal, Option.isSome_map, List.findSome?_isSome_iff]
  constructor
  · rintro ⟨t, ht, -⟩
    exact ⟨t.pos, (hends t.pos).2 ⟨t, ht, rfl⟩⟩
  · rintro ⟨stop, hend⟩
    obtain ⟨t, ht, -⟩ := (hends stop).1 hend
    exact ⟨t, ht, rfl⟩

end Expr

end SyntaxHighlight.Regex
