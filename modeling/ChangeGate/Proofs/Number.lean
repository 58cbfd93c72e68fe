import ChangeGate.Number.Basic
/-!
# Differences

The difference of two numbers is rounded to the format, and may overflow. Its sign is that of the
comparison all the same: a difference that is not zero is at least one smallest step, and rounding
to the leading bits leaves the first of them. So numbers may be put in order by the sign of their
difference (`isPositive_minus`).
-/

namespace ChangeGate

namespace Rounding

theorem div_le_halfEven (num den : Nat) : num / den ≤ halfEven num den := by
  unfold halfEven
  dsimp only
  split
  · exact Nat.le_refl _
  · split
    · exact Nat.le_succ _
    · split
      · exact Nat.le_refl _
      · exact Nat.le_succ _

/-- **Rounding keeps the leading bit,** so nothing is rounded to zero. -/
theorem significant_pos {n : Nat} (h : 0 < n) : 0 < significant n 1 := by
  have hplace := Nat.two_pow_pos (excessBits n 1)
  have hfits : 2 ^ excessBits n 1 ≤ n := by
    have hlog : excessBits n 1 ≤ n.log2 := by
      rw [excessBits, Nat.div_one]
      exact Nat.sub_le _ _
    exact Nat.le_trans (Nat.pow_le_pow_right (by decide) hlog) (Nat.log2_self_le (Nat.ne_of_gt h))
  have hone : 0 < n / 2 ^ excessBits n 1 := Nat.div_pos hfits hplace
  rw [significant, Nat.one_mul, Nat.pow_eq]
  exact Nat.mul_pos (Nat.lt_of_lt_of_le hone (div_le_halfEven _ _)) hplace

theorem significant_zero : significant 0 1 = 0 := by
  decide

end Rounding

namespace Number

/-- **The difference of two numbers,** rounded to the format. That of an infinity and itself is no
number. -/
def minus : Number → Number → Number
  | .nan, _ => .nan
  | _, .nan => .nan
  | .posInf, .posInf => .nan
  | .negInf, .negInf => .nan
  | .posInf, _ => .posInf
  | .negInf, _ => .negInf
  | _, .posInf => .negInf
  | _, .negInf => .posInf
  | .finite a, .finite b =>
    let difference := a.steps - b.steps
    ofQuotient (difference < 0) difference.natAbs 1

/-- A rounded magnitude is positive exactly if it was so before. -/
theorem isPositive_ofQuotient (negative : Bool) (n : Nat) :
    (ofQuotient negative n 1).isPositive = (!negative && decide (0 < n)) := by
  unfold ofQuotient
  split
  · rename_i hfits
    have hsign : ∀ steps fits, (Number.finite ⟨steps, fits⟩).isPositive = decide (0 < steps) :=
      fun _ _ => rfl
    rw [hsign]
    cases negative with
    | true => simp
    | false =>
      rcases Nat.eq_zero_or_pos n with rfl | hpos
      · simp [Rounding.significant_zero]
      · have := Rounding.significant_pos hpos
        simp [hpos, this]
  · rename_i hover
    have hpos : 0 < n := by
      rcases Nat.eq_zero_or_pos n with rfl | hpos
      · rw [Rounding.significant_zero] at hover
        exact absurd stepsLimit_pos hover
      · exact hpos
    cases negative with
    | true => rfl
    | false =>
      rw [if_neg (by decide), decide_eq_true hpos]
      rfl

/-- **A difference is positive exactly if the first number is greater.** -/
theorem isPositive_minus (a b : Number) : (a.minus b).isPositive = b.lt a := by
  cases a with
  | nan => cases b <;> rfl
  | posInf => cases b <;> rfl
  | negInf => cases b <;> rfl
  | finite x =>
    cases b with
    | nan | posInf | negInf => rfl
    | finite y =>
      have hlt : (Number.finite y).lt (.finite x) = decide (y.steps < x.steps) := rfl
      rw [hlt, minus, isPositive_ofQuotient, Bool.eq_iff_iff]
      simp only [Bool.and_eq_true, Bool.not_eq_true', decide_eq_true_eq, decide_eq_false_iff_not]
      omega

end Number

end ChangeGate
