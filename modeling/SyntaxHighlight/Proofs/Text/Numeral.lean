import Mathlib.Algebra.Group.Nat.Defs
import SyntaxHighlight.Text.Numeral

/-! Numbers and the decimal digits that spell them. -/
namespace SyntaxHighlight

open Unicode

/-- Decimal digits for a number, without zeros ahead of them. -/
structure Spells (digits : List Char) (n : Nat) : Prop where
  digit : ∀ c ∈ digits, isAsciiDigit c = true
  zero : digits.head?.any (· != '0') = true
  value : numeralValue 10 digits = n

variable {digits : List Char} {n m : Nat}

theorem numeralValue_eq (h : ∀ c ∈ digits, isAsciiDigit c = true) :
    numeralValue 10 digits = Nat.ofDigitChars 10 digits 0 := by
  have hfold (k : Nat) : digits.foldl (fun n c ↦ n * 10 + digitValue c) k =
      Nat.ofDigitChars 10 digits k := by
    induction digits generalizing k with
    | nil => rfl
    | cons c digits ih =>
      have hc : digitValue c = c.toNat - '0'.toNat := if_pos (h c List.mem_cons_self)
      rw [List.foldl_cons, Nat.ofDigitChars_cons, ih fun d hd ↦ h d (List.mem_cons_of_mem _ hd),
        hc, Nat.mul_comm]
  exact hfold 0

theorem Spells.exists_cons (h : Spells digits n) : ∃ c cs, digits = c :: cs := by
  cases digits with
  | nil => cases h.zero
  | cons c cs => exact ⟨c, cs, rfl⟩

/-- A number that is spelled with some digits is at least as great as the least such number. -/
theorem Spells.pow_le (h : Spells digits n) : ∃ k, digits.length = k + 1 ∧ 10 ^ k ≤ n := by
  obtain ⟨hdigit, hzero, hvalue⟩ := h
  cases digits with
  | nil => cases hzero
  | cons c digits =>
    refine ⟨digits.length, rfl, ?_⟩
    have hc := hdigit c List.mem_cons_self
    have hne : c ≠ '0' := by simpa using hzero
    have hlow : '0'.toNat < c.toNat := by
      have hle : '0' ≤ c := of_decide_eq_true ((Bool.and_eq_true _ _).mp hc).1
      exact Nat.lt_of_le_of_ne (UInt32.le_iff_toNat_le.1 hle)
        fun heq ↦ hne (Char.ext (UInt32.toNat_inj.1 heq.symm))
    rw [numeralValue_eq hdigit, Nat.ofDigitChars_cons,
      Nat.ofDigitChars_eq_ofDigitChars_zero] at hvalue
    rw [← hvalue]
    refine Nat.le_trans (Nat.le_mul_of_pos_right _ ?_) (Nat.le_add_right _ _)
    omega

theorem Spells.pos (h : Spells digits n) : 0 < n := by
  obtain ⟨k, -, hle⟩ := h.pow_le
  exact Nat.lt_of_lt_of_le (Nat.pow_pos (by decide)) hle

theorem head?_toDigits (h : 0 < n) : (Nat.toDigits 10 n).head?.any (· != '0') = true := by
  induction n using Nat.base_induction 10 (by decide) with
  | single m hm =>
    rw [Nat.toDigits_of_lt_base hm]
    decide +revert
  | digit m k hk hm ih =>
    have ih := ih hm
    rw [← Nat.toDigits_append_toDigits (by decide) hm hk, List.head?_append]
    cases hhead : (Nat.toDigits 10 m).head? with
    | none =>
      rw [hhead] at ih
      cases ih
    | some c =>
      rw [hhead] at ih
      exact ih

theorem spells_toString (h : 0 < n) : Spells (toString n).toList n := by
  have hdigits : (toString n).toList = Nat.toDigits 10 n := by simp
  have hall (c : Char) (hc : c ∈ Nat.toDigits 10 n) : isAsciiDigit c = true :=
    Nat.isDigit_of_mem_toDigits (by decide) (by decide) hc
  rw [hdigits]
  exact ⟨hall, head?_toDigits h, by rw [numeralValue_eq hall, Nat.ofDigitChars_ten_toDigits]⟩

theorem Spells.lt_pow (h : Spells digits n) : n < 10 ^ digits.length := by
  have hvalue (cs : List Char) (hcs : ∀ c ∈ cs, isAsciiDigit c = true) :
      Nat.ofDigitChars 10 cs 0 < 10 ^ cs.length := by
    induction cs with
    | nil => exact Nat.one_pos
    | cons c cs ih =>
      have hrest := ih fun d hd ↦ hcs d (List.mem_cons_of_mem _ hd)
      have hle : c ≤ '9' :=
        of_decide_eq_true ((Bool.and_eq_true _ _).mp (hcs c List.mem_cons_self)).2
      have hdigit : c.toNat ≤ '9'.toNat := UInt32.le_iff_toNat_le.1 hle
      rw [Nat.ofDigitChars_cons, Nat.ofDigitChars_eq_ofDigitChars_zero, List.length_cons,
        Nat.pow_succ]
      have hscaled : 10 ^ cs.length * (10 * 0 + (c.toNat - '0'.toNat)) ≤ 10 ^ cs.length * 9 :=
        Nat.mul_le_mul_left _ (by
          have hnine : '9'.toNat = 57 := rfl
          have hzero : '0'.toNat = 48 := rfl
          omega)
      omega
  rw [← h.value, numeralValue_eq h.digit]
  exact hvalue digits h.digit

theorem Spells.length_le {digits' : List Char} (h : Spells digits n) (h' : Spells digits' m)
    (hle : n ≤ m) : digits.length ≤ digits'.length := by
  obtain ⟨k, hk, hpow⟩ := h.pow_le
  have hlt : 10 ^ k < 10 ^ digits'.length :=
    Nat.lt_of_le_of_lt (Nat.le_trans hpow hle) h'.lt_pow
  rw [hk]
  exact (Nat.pow_lt_pow_iff_right (by decide)).1 hlt

end SyntaxHighlight
