/-!
# Rounding a quotient

Two roundings of `num / den` on natural numbers: to the nearest integer, and to the nearest
integer of at most 53 significant bits. In both an exact half goes to the even neighbour. The
second is the rounding of binary floating point, once magnitudes are counted in the smallest
positive step.
-/

namespace ChangeGate.Rounding

/-- **The integer nearest to `num / den`.** The remainder is compared with half the divisor; an
exact half goes to the even neighbour. -/
def halfEven (num den : Nat) : Nat :=
  let q := num / den
  let r := num % den
  if 2 * r < den then q
  else if den < 2 * r then q + 1
  else if q % 2 = 0 then q
  else q + 1

/-- The places that the integer part of `num / den` has beyond 53 bits. -/
def excessBits (num den : Nat) : Nat :=
  (num / den).log2 - 52

/-- **The nearest integer with 53 significant bits.** The places beyond the 53rd are rounded
away and stand as zeros. -/
def significant (num den : Nat) : Nat :=
  halfEven num (den * Nat.pow 2 (excessBits num den)) * Nat.pow 2 (excessBits num den)

theorem halfEven_le (num den : Nat) : halfEven num den ≤ num / den + 1 := by
  simp only [halfEven]
  grind

/-- **What is rounded fits.** The integer part loses `excessBits` places, so what is left is
below `2^53`, and rounding adds at most one. -/
theorem halfEven_excessBits_le (num den : Nat) :
    halfEven num (den * Nat.pow 2 (excessBits num den)) ≤ Nat.pow 2 53 := by
  simp only [Nat.pow_eq]
  refine Nat.le_trans (halfEven_le _ _) ?_
  have hlog : num / den < 2 ^ ((num / den).log2 + 1) := Nat.lt_log2_self
  have hbits : (num / den).log2 + 1 ≤ 53 + excessBits num den := by
    unfold excessBits; omega
  have hpow : num / den < 2 ^ 53 * 2 ^ excessBits num den := by
    rw [← Nat.pow_add]
    exact Nat.lt_of_lt_of_le hlog (Nat.pow_le_pow_right (by decide) hbits)
  rw [← Nat.div_div_eq_div_mul]
  exact Nat.succ_le_of_lt ((Nat.div_lt_iff_lt_mul (Nat.two_pow_pos _)).2 hpow)

/-- A whole number of `den`s rounds to itself. -/
theorem halfEven_mul_left (n den : Nat) (h : 0 < den) : halfEven (n * den) den = n := by
  simp [halfEven, Nat.mul_div_cancel _ h, h]

/-- **Scaling both terms changes nothing.** -/
theorem halfEven_mul_mul (num den k : Nat) (h : 0 < k) :
    halfEven (k * num) (k * den) = halfEven num den := by
  have hlt : ∀ a b : Nat, 2 * (k * a) < k * b ↔ 2 * a < b := fun a b => by
    rw [Nat.mul_left_comm]; exact Nat.mul_lt_mul_left h
  have hgt : ∀ a b : Nat, k * b < 2 * (k * a) ↔ b < 2 * a := fun a b => by
    rw [Nat.mul_left_comm]; exact Nat.mul_lt_mul_left h
  simp only [halfEven, Nat.mul_div_mul_left _ _ h, Nat.mul_mod_mul_left, hlt, hgt]

theorem excessBits_mul_mul (num den k : Nat) (h : 0 < k) :
    excessBits (k * num) (k * den) = excessBits num den := by
  simp only [excessBits, Nat.mul_div_mul_left _ _ h]

theorem significant_mul_mul (num den k : Nat) (h : 0 < k) :
    significant (k * num) (k * den) = significant num den := by
  simp only [significant, excessBits_mul_mul _ _ _ h, Nat.mul_assoc, halfEven_mul_mul _ _ _ h]

end ChangeGate.Rounding
