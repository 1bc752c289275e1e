import SyntaxHighlight.Regex.Compile

/-!
What a match does to its state step by step it does as a whole: a relation that every step keeps is
one between the state that a tree starts from and any that it hands on.
-/
namespace SyntaxHighlight.Regex

/-- A matcher that, started where it may be, hands on only states that are related to that one. -/
def HandsOn (P : State → Prop) (R : State → State → Prop) (m : Matcher) : Prop :=
  ∀ {s r : State} {k : State → Option State}, P s → m s k = some r → ∃ t, R s t ∧ k t = some r

/-- A relation that goes from step to step, each from where the one before it leads. -/
structure IsSteady (P : State → Prop) (R : State → State → Prop) : Prop where
  refl {s : State} : P s → R s s
  trans {s t u : State} : R s t → R t u → R s u
  leads {s t : State} : R s t → P t

section Repeating

variable {P : State → Prop} {R : State → State → Prop} {m : Matcher}

theorem HandsOn.found {s t : State} (h : HandsOn P R m) (hs : P s) (hr : m s some = some t) :
    R s t := by
  obtain ⟨u, hu, heq⟩ := h hs hr
  cases heq
  exact hu

variable (hR : IsSteady P R)

include hR

theorem HandsOn.bind {m' : Matcher} (h : HandsOn P R m) (h' : HandsOn P R m') {s r : State}
    {k : State → Option State} (hs : P s) (hr : (m s fun t ↦ m' t k) = some r) :
    ∃ t, R s t ∧ k t = some r := by
  obtain ⟨t, ht, hr⟩ := h hs hr
  obtain ⟨u, hu, hr⟩ := h' (hR.leads ht) hr
  exact ⟨u, hR.trans ht hu, hr⟩

theorem handsOn_times (h : HandsOn P R m) (n : Nat) : HandsOn P R (times m n) := by
  induction n with
  | zero => exact fun hs hr ↦ ⟨_, hR.refl hs, hr⟩
  | succ n ih => exact fun hs hr ↦ HandsOn.bind hR h ih hs hr

theorem handsOn_upTo (h : HandsOn P R m) (greedy : Bool) (n : Nat) :
    HandsOn P R (upTo m greedy n) := by
  induction n with
  | zero => exact fun hs hr ↦ ⟨_, hR.refl hs, hr⟩
  | succ n ih =>
    intro s r k hs hr
    rw [upTo] at hr
    split at hr <;> split at hr
    · rename_i hmore
      cases hr
      exact HandsOn.bind hR h ih hs hmore
    · exact ⟨s, hR.refl hs, hr⟩
    · rename_i hdone
      cases hr
      exact ⟨s, hR.refl hs, hdone⟩
    · exact HandsOn.bind hR h ih hs hr

theorem handsOn_anyTimes (h : HandsOn P R m) (greedy : Bool) (n : Nat) :
    HandsOn P R (anyTimes m greedy n) := by
  induction n with
  | zero => exact fun hs hr ↦ ⟨_, hR.refl hs, hr⟩
  | succ n ih =>
    intro s r k hs hr
    -- A round that consumes nothing is the last one, any other may be followed by more.
    have hround (hr : (m s fun t ↦ if t.pos = s.pos then k t else anyTimes m greedy n t k) =
        some r) : ∃ t, R s t ∧ k t = some r := by
      obtain ⟨t, ht, hr⟩ := h hs hr
      split at hr
      · exact ⟨t, ht, hr⟩
      · obtain ⟨u, hu, hr⟩ := ih (hR.leads ht) hr
        exact ⟨u, hR.trans ht hu, hr⟩
    rw [anyTimes] at hr
    split at hr <;> split at hr
    · rename_i hmore
      cases hr
      exact hround hmore
    · exact ⟨s, hR.refl hs, hr⟩
    · rename_i hdone
      cases hr
      exact ⟨s, hR.refl hs, hdone⟩
    · exact hround hr

end Repeating

def Anywhere (_ : State) : Prop := True

/-- A relation of states that does not depend on where they are. -/
structure IsPlaceless (R : State → State → Prop) : Prop extends IsSteady Anywhere R where
  moved (s : State) (pos : Nat) : R s { s with pos := pos }

section Placeless

variable {R : State → State → Prop} {m : Matcher} (hR : IsPlaceless R)

include hR

theorem handsOn_endingAt (h : HandsOn Anywhere R m) {s t : State} {n distance : Nat}
    (hr : endingAt m s n distance = some t) : R s t := by
  induction n generalizing distance with
  | zero => cases hr
  | succ n ih =>
    rw [endingAt] at hr
    split at hr
    · split at hr
      · rename_i hends
        cases hr
        obtain ⟨u, hu, hr⟩ := h trivial hends
        obtain ⟨-, hr⟩ := Option.ite_none_right_eq_some.1 hr
        cases hr
        exact hR.trans (hR.moved s _) hu
      · exact ih hr
    · cases hr

theorem handsOn_foldedRun (text : Text) (n : Nat) (run : List Char) :
    HandsOn Anywhere R (foldedRun text n run) := by
  induction n generalizing run with
  | zero =>
    intro s r k _ hr
    cases run with
    | nil => exact ⟨s, hR.refl trivial, hr⟩
    | cons p ps => cases hr
  | succ n ih =>
    intro s r k _ hr
    cases run with
    | nil => exact ⟨s, hR.refl trivial, hr⟩
    | cons p ps =>
      have hnext {rest : List Char} {pos : Nat}
          (hr : foldedRun text n rest { s with pos := pos } k = some r) :
          ∃ t, R s t ∧ k t = some r := by
        obtain ⟨t, ht, hr⟩ := ih rest trivial hr
        exact ⟨t, hR.trans (hR.moved s pos) ht, hr⟩
      rw [foldedRun] at hr
      split at hr
      · cases hr
      · simp only [Option.orElse_eq_orElse, Option.orElse_eq_or, Option.or_eq_some_iff] at hr
        obtain hr | ⟨-, hr | ⟨-, hr⟩⟩ := hr
        · exact hnext (Option.ite_none_right_eq_some.1 hr).2
        · split at hr
          · split at hr
            · exact hnext hr
            · cases hr
          · cases hr
        · split at hr
          · split at hr
            · exact hnext hr
            · cases hr
          · cases hr

theorem handsOn_foldedRuns (text : Text) (texts : List (List Char)) :
    HandsOn Anywhere R (foldedRuns text texts) := by
  intro s r k _ hr
  rw [foldedRuns] at hr
  split at hr
  · cases hr
  · obtain ⟨run, -, hr⟩ := List.exists_of_findSome?_eq_some hr
    split at hr
    · exact handsOn_foldedRun hR _ _ _ trivial (Option.ite_none_right_eq_some.1 hr).2
    · cases hr

end Placeless

/-- Entering a group, what is done within it, and leaving it, taken together. -/
def Encloses (R : State → State → Prop) (n : Nat) : Prop :=
  ∀ {s t : State}, R { s with events := .entered n s.pos :: s.events } t →
    R s { t with events := .left n s.pos t.pos :: t.events }

/-- A tree keeps a relation if the groups in it do, the match is not reset, and groups that are
called keep it. -/
theorem handsOn_run {R : State → State → Prop} (hR : IsPlaceless R) {subject : Subject} {callee : GroupRef → Matcher}
    {a : Node} (hgroups : ∀ n body, .group n body ∈ a.subterms → Encloses R n)
    (hkeep : .keep ∉ a.subterms)
    (hcallee : ∀ target, .call target ∈ a.subterms → HandsOn Anywhere R (callee target)) :
    HandsOn Anywhere R (run subject callee a) := by
  induction a with
  | empty => exact fun _ hr ↦ ⟨_, hR.refl trivial, hr⟩
  | set set =>
    intro s r k _ hr
    rw [run] at hr
    split at hr
    · exact ⟨_, hR.moved s _, (Option.ite_none_right_eq_some.1 hr).2⟩
    · cases hr
  | folded run => exact handsOn_foldedRun hR _ _ _
  | foldedAny runs => exact handsOn_foldedRuns hR _ _
  | seq a b iha ihb =>
    simp only [Node.subterms, List.mem_cons, List.mem_append, reduceCtorEq, false_or] at *
    exact fun hs hr ↦ HandsOn.bind hR.toIsSteady
      (iha (fun n body h ↦ hgroups n body (.inl h)) (fun h ↦ hkeep (.inl h))
        fun target h ↦ hcallee target (.inl h))
      (ihb (fun n body h ↦ hgroups n body (.inr h)) (fun h ↦ hkeep (.inr h))
        fun target h ↦ hcallee target (.inr h)) hs hr
  | alt a b iha ihb =>
    simp only [Node.subterms, List.mem_cons, List.mem_append, reduceCtorEq, false_or] at *
    intro s r k _ hr
    rw [run] at hr
    split at hr
    · rename_i hfirst
      cases hr
      exact iha (fun n body h ↦ hgroups n body (.inl h)) (fun h ↦ hkeep (.inl h))
        (fun target h ↦ hcallee target (.inl h)) trivial hfirst
    · exact ihb (fun n body h ↦ hgroups n body (.inr h)) (fun h ↦ hkeep (.inr h))
        (fun target h ↦ hcallee target (.inr h)) trivial hr
  | group n body ih =>
    simp only [Node.subterms, List.mem_cons, reduceCtorEq, false_or] at *
    intro s r k _ hr
    rw [run] at hr
    obtain ⟨t, ht, hr⟩ := ih (fun n body h ↦ hgroups n body (.inr h)) hkeep hcallee trivial hr
    exact ⟨_, hgroups n body (.inl rfl) ht, hr⟩
  | atomic body ih =>
    simp only [Node.subterms, List.mem_cons, reduceCtorEq, false_or] at *
    intro s r k _ hr
    rw [run] at hr
    split at hr
    · rename_i hbody
      exact ⟨_, HandsOn.found (ih hgroups hkeep hcallee) trivial hbody, hr⟩
    · cases hr
  | repetition body low high greedy ih =>
    simp only [Node.subterms, List.mem_cons, reduceCtorEq, false_or] at *
    intro s r k _ hr
    have hbody : HandsOn Anywhere R (run subject callee body) := ih hgroups hkeep hcallee
    rw [run] at hr
    obtain ⟨t, ht, hr⟩ := handsOn_times hR.toIsSteady hbody low trivial hr
    cases high with
    | some high =>
      obtain ⟨u, hu, hr⟩ := handsOn_upTo hR.toIsSteady hbody greedy _ trivial hr
      exact ⟨u, hR.trans ht hu, hr⟩
    | none =>
      obtain ⟨u, hu, hr⟩ := handsOn_anyTimes hR.toIsSteady hbody greedy _ trivial hr
      exact ⟨u, hR.trans ht hu, hr⟩
  | look direction negated body ih =>
    simp only [Node.subterms, List.mem_cons, reduceCtorEq, false_or] at *
    intro s r k _ hr
    have hbody : HandsOn Anywhere R (run subject callee body) := ih hgroups hkeep hcallee
    cases direction with
    | ahead =>
      rw [run] at hr
      split at hr
      · rename_i hfound
        split at hr
        · cases hr
        · exact ⟨_, hR.trans (HandsOn.found hbody trivial hfound) (hR.moved _ _), hr⟩
      · exact ⟨s, hR.refl trivial, (Option.ite_none_right_eq_some.1 hr).2⟩
    | behind =>
      rw [run] at hr
      dsimp only at hr
      split at hr
      · rename_i hfound
        split at hr
        · cases hr
        · exact ⟨_, handsOn_endingAt hR hbody hfound, hr⟩
      · exact ⟨s, hR.refl trivial, (Option.ite_none_right_eq_some.1 hr).2⟩
  | backref groups ignoreCase =>
    intro s r k _ hr
    rw [run] at hr
    split at hr
    · exact ⟨_, hR.moved s _, hr⟩
    · cases hr
  | call target => exact hcallee target (List.mem_singleton_self _)
  | anchor a =>
    intro s r k _ hr
    rw [run] at hr
    exact ⟨s, hR.refl trivial, (Option.ite_none_right_eq_some.1 hr).2⟩
  | keep => exact absurd (List.mem_singleton_self _) hkeep

end SyntaxHighlight.Regex
