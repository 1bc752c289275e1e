import SyntaxHighlight.Proofs.Outcome

/-! Computations that come to like results or fail alike. -/
namespace SyntaxHighlight

variable {ε α β γ δ : Type}

/-- Two computations come to related results, or fail with the same error. Where the first fails
with an error that is excused, the second may come to anything. -/
inductive Agree (excused : ε → Prop) (R : α → β → Prop) : Except ε α → Except ε β → Prop
  | ok {a : α} {b : β} : R a b → Agree excused R (.ok a) (.ok b)
  | error (err : ε) : Agree excused R (.error err) (.error err)
  | excused {err : ε} (y : Except ε β) : excused err → Agree excused R (.error err) y

namespace Agree

variable {excused excused' : ε → Prop} {R : α → β → Prop} {S : γ → δ → Prop}
  {x : Except ε α} {y : Except ε β}

theorem bind {f : α → Except ε γ} {g : β → Except ε δ} (h : Agree excused R x y)
    (hfg : ∀ a b, R a b → Agree excused S (f a) (g b)) : Agree excused S (x >>= f) (y >>= g) := by
  cases h with
  | ok hab => exact hfg _ _ hab
  | error err => exact .error err
  | excused y herr => exact .excused _ herr

theorem map {f : α → γ} {g : β → δ} (h : Agree excused R x y)
    (hfg : ∀ a b, R a b → S (f a) (g b)) : Agree excused S (f <$> x) (g <$> y) := by
  cases h with
  | ok hab => exact .ok (hfg _ _ hab)
  | error err => exact .error err
  | excused y herr => exact .excused _ herr

theorem mono {R' : α → β → Prop} (h : Agree excused R x y)
    (hexcused : ∀ err, excused err → excused' err) (hR : ∀ a b, R a b → R' a b) :
    Agree excused' R' x y := by
  cases h with
  | ok hab => exact .ok (hR _ _ hab)
  | error err => exact .error err
  | excused y herr => exact .excused _ (hexcused _ herr)

theorem refl {R : α → α → Prop} (hR : ∀ a, R a a) (x : Except ε α) : Agree excused R x x := by
  cases x with
  | ok a => exact .ok (hR a)
  | error err => exact .error err

theorem exists_ok {a : α} (h : Agree excused R (.ok a) y) : ∃ b, y = .ok b ∧ R a b := by
  cases h with
  | ok hab => exact ⟨_, rfl, hab⟩

theorem eq {y : Except ε α} (h : Agree (fun _ ↦ False) (· = ·) x y) : x = y := by
  cases h with
  | ok hab => rw [hab]
  | error err => rfl
  | excused y herr => exact herr.elim

theorem mapM {f g : α → Except ε γ} {xs : List α}
    (h : ∀ a ∈ xs, Agree excused (· = ·) (f a) (g a)) :
    Agree excused (· = ·) (xs.mapM f) (xs.mapM g) := by
  induction xs with
  | nil => exact .ok rfl
  | cons a xs ih =>
    rw [List.mapM_cons, List.mapM_cons]
    refine (h a List.mem_cons_self).bind ?_
    rintro c _ rfl
    refine (ih fun a ha ↦ h a (List.mem_cons_of_mem _ ha)).bind ?_
    rintro cs _ rfl
    exact .ok rfl

theorem foldlM {f : α → γ → Except ε α} {g : β → γ → Except ε β}
    (h : ∀ a b c, R a b → Agree excused R (f a c) (g b c)) (cs : List γ) {a : α} {b : β}
    (hab : R a b) : Agree excused R (cs.foldlM f a) (cs.foldlM g b) := by
  induction cs generalizing a b with
  | nil => exact .ok hab
  | cons c cs ih =>
    rw [List.foldlM_cons, List.foldlM_cons]
    exact (h a b c hab).bind fun a b ↦ ih

end Agree

end SyntaxHighlight
