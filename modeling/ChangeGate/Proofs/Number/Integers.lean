import ChangeGate.Number.Basic
/-!
# Integers among the numbers

What fits the format is not rounded (`ofQuotient_of_isBinary64`), and an integer of at most 53 bits
fits. So the integer after a safe one is a number of its own, even after the last safe one
(`toInt?_addOne`).

A target SDK gate is an integer and an SDK level any number. `Number.AtLeast` says that a level
reaches an integer, in terms of steps: `le_iff_atLeast` is what comparing numbers makes of it, and
the smaller of two levels reaches an integer exactly if both do (`atLeast_min_iff`).
-/

namespace ChangeGate

theorem cast_stepsPerOne_pos : (0 : Int) < stepsPerOne := by
  have := stepsPerOne_pos
  omega

namespace Number

/-! ## Nothing is rounded -/

/-- **What fits the format is not rounded.** -/
theorem ofQuotient_of_isBinary64 {steps : Int} (h : IsBinary64 steps.natAbs) :
    ofQuotient (decide (steps < 0)) steps.natAbs 1 = .finite ⟨steps, h⟩ := by
  have hround : Rounding.significant steps.natAbs 1 = steps.natAbs := by
    have hexact := significant_mul_of_isBinary64 h Nat.one_pos
    rwa [Nat.mul_one] at hexact
  have hfits : Rounding.significant steps.natAbs 1 < stepsLimit := by
    rw [hround]
    exact h.2
  rw [ofQuotient, dif_pos hfits, Number.finite.injEq, Binary64.mk.injEq, hround]
  by_cases hsign : steps < 0
  · rw [if_pos (decide_eq_true hsign)]
    omega
  · rw [if_neg (by simpa using hsign)]
    omega

/-- **The step after a safe integer is exact,** though the last one is not safe any more. -/
theorem toInt?_addOne (n : SafeInt) : (ofSafeInt n).addOne.toInt? = some (n.val + 1) := by
  have hbits : (n.val + 1).natAbs ≤ Nat.pow 2 53 := by
    have := n.lower
    have := n.upper
    rw [Nat.pow_eq]
    omega
  have hsum : n.val * stepsPerOne + stepsPerOne = (n.val + 1) * stepsPerOne := by
    rw [Int.add_mul, Int.one_mul]
  have hfits := isBinary64_int hbits
  refine toInt?_eq_some_iff.2 ⟨hfits, ?_⟩
  rw [ofSafeInt, addOne]
  dsimp only
  rw [hsum]
  exact ofQuotient_of_isBinary64 hfits

/-! ## Order -/

theorem lt_ofSafeInt (a b : SafeInt) : (ofSafeInt a).lt (ofSafeInt b) = decide (a < b) := by
  simp only [ofSafeInt, lt, SafeInt.lt_def, Int.mul_lt_mul_right cast_stepsPerOne_pos]

theorem le_ofSafeInt (a b : SafeInt) : (ofSafeInt a).le (ofSafeInt b) = decide (a ≤ b) := by
  simp only [ofSafeInt, le, SafeInt.le_def, Int.mul_le_mul_right cast_stepsPerOne_pos]

/-- An integer is positive as a number if it is so. -/
theorem isPositive_of_toInt? {x : Number} {n : Int} (h : x.toInt? = some n) :
    x.isPositive = decide (0 < n) := by
  obtain ⟨_, rfl⟩ := toInt?_eq_some_iff.1 h
  have hscale : 0 < n * (stepsPerOne : Int) ↔ 0 < n := by
    have hright := Int.mul_lt_mul_right (b := 0) (c := n) cast_stepsPerOne_pos
    rwa [Int.zero_mul] at hright
  exact decide_eq_decide.2 hscale

/-- **A level that reaches an integer.** No integer is reached by `nan`. -/
def AtLeast (x : Number) (n : Int) : Prop :=
  match x with
  | nan => False
  | negInf => False
  | posInf => True
  | finite value => n * stepsPerOne ≤ value.steps

variable {x y : Number} {n : Int}

/-- **A number is at least that of an integer if it reaches the integer.** -/
theorem le_iff_atLeast {gate : Number} (h : gate.toInt? = some n) :
    gate.le x = true ↔ x.AtLeast n := by
  obtain ⟨_, rfl⟩ := toInt?_eq_some_iff.1 h
  cases x <;> simp [le, AtLeast]

/-- **The smaller of two levels reaches what both reach.** -/
theorem atLeast_min_iff : (x.min y).AtLeast n ↔ x.AtLeast n ∧ y.AtLeast n := by
  cases x with
  | nan => simp [min, AtLeast]
  | negInf => cases y <;> simp [min, le, AtLeast]
  | posInf => cases y <;> simp [min, le, AtLeast]
  | finite x =>
    cases y with
    | nan => simp [min, AtLeast]
    | negInf => simp [min, le, AtLeast]
    | posInf => simp [min, le, AtLeast]
    | finite y =>
      simp only [min, le, reduceCtorEq, or_self, if_false, decide_eq_true_eq]
      split <;> simp only [AtLeast] <;> omega

/-- **What a level reaches a greater one reaches too.** -/
theorem AtLeast.mono (h : x.AtLeast n) (hle : x.le y = true) : y.AtLeast n := by
  cases x with
  | nan => cases h
  | negInf => cases h
  | posInf => cases y <;> simp_all [le, AtLeast]
  | finite x =>
    cases y with
    | nan => cases hle
    | negInf => cases hle
    | posInf => trivial
    | finite y =>
      simp only [le, decide_eq_true_eq] at hle
      simp only [AtLeast] at h ⊢
      omega

theorem le_of_lt (h : x.lt y = true) : x.le y = true := by
  cases x <;> cases y <;> simp_all [lt, le]
  omega

end Number

end ChangeGate
