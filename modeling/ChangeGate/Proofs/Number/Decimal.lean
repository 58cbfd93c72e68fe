import Mathlib.Tactic.Ring
import ChangeGate.Number.Decimal
import ChangeGate.Proofs.Number.Integers
/-!
# Decimals and their numbers

The nearest number of a decimal depends on its value only: zeros at the end of its digits may as
well stand in its exponent (`toNumber_mul_pow`). A finite number in full is a decimal with that
very number (`toNumber_exact`), and so is its shortest decimal, be it found on a grid or not
(`toNumber_shortest`).
-/

namespace ChangeGate

namespace Rounding

/-- **The same quotient in other terms** is rounded to the same. -/
theorem significant_congr {num den num' den' : Nat} (hden : 0 < den) (hden' : 0 < den')
    (h : num * den' = num' * den) : significant num den = significant num' den' := by
  rw [← significant_mul_mul num den den' hden', ← significant_mul_mul num' den' den hden,
    Nat.mul_comm den' num, h, Nat.mul_comm num' den, Nat.mul_comm den' den]

end Rounding

theorem Number.ofQuotient_congr {num den num' den' : Nat} (negative : Bool) (hden : 0 < den)
    (hden' : 0 < den') (h : num * den' = num' * den) :
    ofQuotient negative num den = ofQuotient negative num' den' := by
  simp only [ofQuotient, Rounding.significant_congr hden hden' h]

namespace Decimal

variable {n : Nat}

/-! ## Digits -/

/-- **Ten times a number has its digits and a zero.** -/
theorem toDigits_mul_pow (hn : n ≠ 0) (j : Nat) :
    Nat.toDigits 10 (n * 10 ^ j) = Nat.toDigits 10 n ++ List.replicate j '0' := by
  induction j with
  | zero => simp
  | succ j ih =>
    have hpos : 0 < n * 10 ^ j := Nat.mul_pos (Nat.pos_of_ne_zero hn) (Nat.pow_pos (by decide))
    have hzero : Nat.digitChar 0 = '0' := by decide
    rw [Nat.pow_succ, ← Nat.mul_assoc, Nat.toDigits_of_base_le (by decide) (by omega),
      Nat.mul_div_cancel _ (by decide), Nat.mul_mod_left, ih, hzero, List.append_assoc,
      ← List.replicate_succ']

theorem length_mul_pow (hn : n ≠ 0) (j : Nat) : length (n * 10 ^ j) = length n + j := by
  rw [length, toDigits_mul_pow hn, List.length_append, List.length_replicate, length]

theorem length_le_iff {k : Nat} (hk : 0 < k) : length n ≤ k ↔ n < 10 ^ k :=
  Nat.length_toDigits_le_iff (by decide) hk

/-! ## The nearest number -/

/-- **The nearest number, as one quotient,** whichever sign the exponent has. -/
theorem toNumber_eq (d : Decimal) : d.toNumber =
    if d.digits = 0 ∨ d.exponent + length d.digits < -400 then .zero
    else if 400 < d.exponent + length d.digits then (if d.negative then .negInf else .posInf)
    else .ofQuotient d.negative (d.digits * 10 ^ d.exponent.toNat * stepsPerOne)
      (10 ^ (-d.exponent).toNat) := by
  obtain ⟨negative, digits, exponent⟩ := d
  cases exponent with
  | ofNat places =>
    have hpower : (-Int.ofNat places).toNat = 0 := by simp
    rw [hpower]
    rfl
  | negSucc places =>
    have hpower : (Int.negSucc places).toNat = 0 := rfl
    rw [hpower, Nat.pow_zero, Nat.mul_one]
    rfl

/-- **Zeros at the end of the digits may stand in the exponent.** -/
theorem toNumber_mul_pow (negative : Bool) (hn : n ≠ 0) (j : Nat) (e : Int) :
    (⟨negative, n * 10 ^ j, e⟩ : Decimal).toNumber =
      (⟨negative, n, e + j⟩ : Decimal).toNumber := by
  have hnonzero : n * 10 ^ j ≠ 0 := Nat.mul_ne_zero hn (by simp)
  have hleading : e + (length (n * 10 ^ j) : Int) = e + j + length n := by
    rw [length_mul_pow hn]
    omega
  have hquotient : n * 10 ^ j * 10 ^ e.toNat * stepsPerOne * 10 ^ (-(e + j)).toNat =
      n * 10 ^ (e + j).toNat * stepsPerOne * 10 ^ (-e).toNat := by
    have hpowers : j + e.toNat + (-(e + j)).toNat = (e + j).toNat + (-e).toNat := by omega
    calc n * 10 ^ j * 10 ^ e.toNat * stepsPerOne * 10 ^ (-(e + j)).toNat
        = n * stepsPerOne * 10 ^ (j + e.toNat + (-(e + j)).toNat) := by ring
      _ = n * stepsPerOne * 10 ^ ((e + j).toNat + (-e).toNat) := by rw [hpowers]
      _ = n * 10 ^ (e + j).toNat * stepsPerOne * 10 ^ (-e).toNat := by ring
  rw [toNumber_eq, toNumber_eq]
  dsimp only
  rw [hleading]
  simp only [hn, hnonzero, Number.ofQuotient_congr negative (Nat.pow_pos (by decide))
    (Nat.pow_pos (by decide)) hquotient]

/-! ## Finite numbers -/

/-- The step is not too small for a decimal. -/
theorem pow_five_stepExponent : 10 ^ (stepExponent - 401) ≤ Nat.pow 5 stepExponent := by
  unfold stepExponent
  decide +kernel

/-- And the limit not too great. -/
theorem stepsLimit_mul_pow_five :
    stepsLimit * Nat.pow 5 stepExponent ≤ 10 ^ (stepExponent + 400) := by
  unfold stepsLimit stepExponent limitExponent
  decide +kernel

/-- **A finite number is in reach of decimals:** its leading digit stands within 400 places of the
point. -/
theorem leading_exact {x : Binary64} (hx : x.steps ≠ 0) :
    -400 ≤ (exact x).exponent + length (exact x).digits ∧
      (exact x).exponent + length (exact x).digits ≤ 400 := by
  have hlarge : 401 < stepExponent := by unfold stepExponent; decide
  have hsteps : 0 < x.steps.natAbs := Int.natAbs_pos.2 hx
  have hexponent : (exact x).exponent = -stepExponent := rfl
  have hdigits : (exact x).digits = x.steps.natAbs * Nat.pow 5 stepExponent := rfl
  have hlow : ¬ length (exact x).digits ≤ stepExponent - 401 := by
    rw [length_le_iff (by omega), hdigits, Nat.not_lt]
    exact Nat.le_trans pow_five_stepExponent (Nat.le_mul_of_pos_left _ hsteps)
  have hhigh : length (exact x).digits ≤ stepExponent + 400 := by
    rw [length_le_iff (by omega), hdigits]
    exact Nat.lt_of_lt_of_le
      (Nat.mul_lt_mul_of_pos_right x.fits.2 (Nat.pow_pos (by decide))) stepsLimit_mul_pow_five
  omega

/-- **A number in full has that number.** A step is a power of five behind the point, and the
power of two in it makes that one of ten. -/
theorem toNumber_exact {x : Binary64} (hx : x.steps ≠ 0) : (exact x).toNumber = .finite x := by
  have hexponent : (exact x).exponent = -stepExponent := rfl
  have hdigits : (exact x).digits = x.steps.natAbs * 5 ^ stepExponent := rfl
  have hnonzero : (exact x).digits ≠ 0 := by
    rw [hdigits]
    exact Nat.mul_ne_zero (Int.natAbs_ne_zero.2 hx) (by simp)
  obtain ⟨hlow, hhigh⟩ := leading_exact hx
  have hplaces : (exact x).exponent.toNat = 0 := by omega
  have hpower : (-(exact x).exponent).toNat = stepExponent := by omega
  have hten : (exact x).digits * 10 ^ 0 * stepsPerOne * 1 =
      x.steps.natAbs * 10 ^ stepExponent := by
    have hbase : 10 ^ stepExponent = 5 ^ stepExponent * 2 ^ stepExponent := Nat.mul_pow 5 2 _
    rw [hdigits, hbase, stepsPerOne, Nat.pow_eq]
    ring
  rw [toNumber_eq, if_neg (by omega), if_neg (by omega), hplaces, hpower,
    Number.ofQuotient_congr _ (Nat.pow_pos (by decide)) Nat.one_pos hten]
  exact Number.ofQuotient_of_isBinary64 x.fits

/-- **The shortest decimal of a number has that number.** -/
theorem toNumber_shortest {x : Binary64} (hx : x.steps ≠ 0) :
    (shortest x).toNumber = .finite x := by
  rw [shortest]
  cases hfound : (digitCounts.flatMap (neighbours x)).find? (fun d => d.toNumber = .finite x) with
  | none => exact toNumber_exact hx
  | some d => simpa using List.find?_some hfound

end Decimal

end ChangeGate
