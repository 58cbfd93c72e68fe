import ChangeGate.Number.SafeInt
import ChangeGate.Number.Rounding
/-!
# Numbers

The numbers of the library are the binary floating-point numbers of 64 bits: `Binary64`, the
finite ones, and `Number`, which adds the two infinities and the value that is no number. There
is one zero. A finite number is kept as the count of smallest positive steps (`2^-1074`) that it
consists of, so all arithmetic and every comparison is that of integers.

Main statement: `Number.toSafeInt?_ofSafeInt`, a safe integer is read back from its number.
-/

namespace ChangeGate

/-- The smallest step is `2` to the minus this. -/
@[irreducible] def stepExponent : Nat := 1074

/-- Finite numbers stay below `2` to this. -/
@[irreducible] def limitExponent : Nat := 1024

/-- The number of smallest steps in one. -/
@[irreducible] def stepsPerOne : Nat := Nat.pow 2 stepExponent

/-- The number of smallest steps at which the finite numbers end. -/
@[irreducible] def stepsLimit : Nat := Nat.pow 2 (limitExponent + stepExponent)

theorem stepsPerOne_pos : 0 < stepsPerOne := by
  unfold stepsPerOne; exact Nat.two_pow_pos _

theorem stepsLimit_pos : 0 < stepsLimit := by
  unfold stepsLimit; exact Nat.two_pow_pos _

/-- **A magnitude of the format.** At most 53 significant bits, followed by zeros, below the
limit. -/
def IsBinary64 (steps : Nat) : Prop :=
  (∃ significand shift, significand ≤ Nat.pow 2 53 ∧ steps = significand * Nat.pow 2 shift) ∧
    steps < stepsLimit

/-- **A finite number of 64 bits,** as a count of steps of `2^-1074`. -/
structure Binary64 where
  steps : Int
  fits : IsBinary64 steps.natAbs
deriving DecidableEq

/-- **A number.** Two `nan` are the same value here; `Number.same` is the comparison under which
they differ. -/
inductive Number where
  | nan
  | negInf
  | posInf
  | finite (value : Binary64)
deriving DecidableEq

theorem isBinary64_significant {num den : Nat}
    (h : Rounding.significant num den < stepsLimit) : IsBinary64 (Rounding.significant num den) :=
  ⟨⟨_, _, Rounding.halfEven_excessBits_le num den, rfl⟩, h⟩

theorem isBinary64_zero : IsBinary64 0 :=
  ⟨⟨0, 0, by decide, rfl⟩, stepsLimit_pos⟩

/-- **An integer of at most 53 bits is a number of the format:** the places below one are
zeros. -/
theorem isBinary64_int {n : Int} (hn : n.natAbs ≤ Nat.pow 2 53) :
    IsBinary64 (n * (stepsPerOne : Int)).natAbs := by
  refine ⟨⟨n.natAbs, stepExponent, hn, by simp [Int.natAbs_mul, stepsPerOne]⟩, ?_⟩
  rw [Int.natAbs_mul, Int.natAbs_natCast, stepsPerOne, stepsLimit, Nat.pow_eq, Nat.pow_eq,
    Nat.pow_add]
  refine Nat.mul_lt_mul_of_pos_right (Nat.lt_of_le_of_lt hn ?_) (Nat.two_pow_pos stepExponent)
  exact Nat.pow_lt_pow_right (by decide) (by unfold limitExponent; decide)

theorem isBinary64_safeInt (n : SafeInt) : IsBinary64 (n.val * (stepsPerOne : Int)).natAbs :=
  isBinary64_int (by have := n.lower; have := n.upper; rw [Nat.pow_eq]; omega)

/-- The places below the 53 leading ones are zeros in a magnitude of the format. -/
theorem two_pow_dvd_of_isBinary64 {steps : Nat} (h : IsBinary64 steps) :
    Nat.pow 2 (steps.log2 - 52) ∣ steps := by
  obtain ⟨⟨significand, shift, hle, heq⟩, -⟩ := h
  rw [Nat.pow_eq] at hle heq ⊢
  by_cases hzero : steps = 0
  · rw [hzero]; exact Nat.dvd_zero _
  by_cases hshift : steps.log2 - 52 ≤ shift
  · rw [heq]
    exact Nat.dvd_mul_left_of_dvd (Nat.pow_dvd_pow 2 (heq ▸ hshift)) _
  have hsplit : 2 ^ steps.log2 = 2 ^ (steps.log2 - shift) * 2 ^ shift := by
    rw [← Nat.pow_add]; congr 1; omega
  have hlow : 2 ^ (steps.log2 - shift) * 2 ^ shift ≤ significand * 2 ^ shift := by
    rw [← hsplit, ← heq]; exact Nat.log2_self_le hzero
  have hsig := Nat.le_of_mul_le_mul_right hlow (Nat.two_pow_pos shift)
  have hexp : steps.log2 - shift ≤ 53 :=
    (Nat.pow_le_pow_iff_right (by decide)).1 (Nat.le_trans hsig hle)
  have hsucc : steps.log2 - shift = 53 := by omega
  have hfull : significand = 2 ^ 53 := Nat.le_antisymm hle (hsucc ▸ hsig)
  have hpow : steps = 2 ^ (53 + shift) := by rw [heq, hfull, Nat.pow_add]
  have hplaces : steps.log2 - 52 ≤ 53 + shift := by omega
  exact Nat.dvd_trans (Nat.pow_dvd_pow 2 hplaces) (hpow ▸ Nat.dvd_refl _)

/-- **A finite number is its own nearest,** in whatever terms its magnitude is given. -/
theorem significant_mul_of_isBinary64 {steps den : Nat} (h : IsBinary64 steps) (hden : 0 < den) :
    Rounding.significant (steps * den) den = steps := by
  have hdiv := two_pow_dvd_of_isBinary64 h
  have hexcess : Rounding.excessBits (steps * den) den = steps.log2 - 52 := by
    rw [Rounding.excessBits, Nat.mul_div_cancel _ hden]
  rw [Rounding.significant, hexcess]
  obtain ⟨quotient, hq⟩ := hdiv
  have hplace := Nat.two_pow_pos (steps.log2 - 52)
  rw [Nat.pow_eq] at hq ⊢
  generalize 2 ^ (steps.log2 - 52) = place at hq hplace ⊢
  subst hq
  rw [Nat.mul_assoc, Nat.mul_left_comm, Nat.mul_comm place den,
    Rounding.halfEven_mul_left _ _ (Nat.mul_pos hden hplace), Nat.mul_comm]

namespace Number

/-- **The number of a magnitude.** At the limit and beyond, the infinity of its sign. -/
def ofQuotient (negative : Bool) (num den : Nat) : Number :=
  if h : Rounding.significant num den < stepsLimit then
    .finite {
      steps := if negative then -Rounding.significant num den else Rounding.significant num den
      fits := by split <;> simpa using isBinary64_significant h }
  else if negative then .negInf
  else .posInf

def zero : Number :=
  .finite ⟨0, isBinary64_zero⟩

def ofSafeInt (n : SafeInt) : Number :=
  .finite ⟨n.val * stepsPerOne, isBinary64_safeInt n⟩

/-- The integer that a number is, if it is one. -/
def toInt? : Number → Option Int
  | .finite x => if x.steps % stepsPerOne = 0 then some (x.steps / stepsPerOne) else none
  | _ => none

/-- **The safe integer that a number is,** if it is one: a fraction, an infinity and an integer
beyond the safe range are none. -/
def toSafeInt? (x : Number) : Option SafeInt :=
  x.toInt?.bind SafeInt.ofInt?

/-- Only an integer's own number is read as that integer. -/
theorem toInt?_eq_some_iff {x : Number} {n : Int} :
    x.toInt? = some n ↔ ∃ fits, x = .finite ⟨n * stepsPerOne, fits⟩ := by
  have hpos : (stepsPerOne : Int) ≠ 0 := by
    have := stepsPerOne_pos; omega
  constructor
  · intro h
    cases x with
    | nan => cases h
    | negInf => cases h
    | posInf => cases h
    | finite x =>
      obtain ⟨steps, fits⟩ := x
      simp only [toInt?] at h
      split at h
      · rename_i hmod
        cases h
        have hsteps := Int.ediv_mul_cancel (Int.dvd_of_emod_eq_zero hmod)
        exact ⟨hsteps.symm ▸ fits, by simp only [hsteps]⟩
      · cases h
  · rintro ⟨fits, rfl⟩
    simp [toInt?, Int.mul_ediv_cancel _ hpos]

@[simp] theorem toInt?_ofSafeInt (n : SafeInt) : (ofSafeInt n).toInt? = some n.val :=
  toInt?_eq_some_iff.2 ⟨isBinary64_safeInt n, rfl⟩

/-- **A safe integer is read back from its number.** -/
@[simp] theorem toSafeInt?_ofSafeInt (n : SafeInt) : (ofSafeInt n).toSafeInt? = some n := by
  simp [toSafeInt?]

/-- Only a safe integer's own number is read as that integer. -/
theorem eq_ofSafeInt_of_toSafeInt? {x : Number} {n : SafeInt} (h : x.toSafeInt? = some n) :
    x = ofSafeInt n := by
  obtain ⟨m, hm, hn⟩ := Option.bind_eq_some_iff.1 h
  obtain ⟨fits, rfl⟩ := toInt?_eq_some_iff.1 hm
  cases SafeInt.val_of_ofInt? hn
  rfl

theorem ofSafeInt_injective {a b : SafeInt} (h : ofSafeInt a = ofSafeInt b) : a = b := by
  have := congrArg toSafeInt? h
  simpa using this

/-! ## Comparison

No comparison holds of `nan`. -/

/-- Numeric equality: that of values, but for `nan`, which equals nothing. -/
def same (a b : Number) : Bool :=
  a ≠ .nan && a = b

/-- `a` is at most `b`. -/
def le : Number → Number → Bool
  | .nan, _ => false
  | _, .nan => false
  | .negInf, _ => true
  | _, .posInf => true
  | .finite a, .finite b => a.steps ≤ b.steps
  | _, _ => false

/-- `a` is less than `b`. -/
def lt : Number → Number → Bool
  | .nan, _ => false
  | _, .nan => false
  | .negInf, .negInf => false
  | .negInf, _ => true
  | .posInf, _ => false
  | _, .posInf => true
  | .finite a, .finite b => a.steps < b.steps
  | _, _ => false

def isPositive (x : Number) : Bool :=
  zero.lt x

/-- The smaller of two numbers; `nan` as soon as one of them is. -/
def min (a b : Number) : Number :=
  if a = .nan ∨ b = .nan then .nan else if a.le b then a else b

/-- **The next integer step:** one more, rounded to the format. Infinities and `nan` stay. -/
def addOne : Number → Number
  | .finite x =>
    let sum := x.steps + stepsPerOne
    ofQuotient (sum < 0) sum.natAbs 1
  | x => x

@[simp] theorem same_ofSafeInt (a b : SafeInt) :
    (ofSafeInt a).same (ofSafeInt b) = decide (a = b) := by
  simp only [same]
  by_cases h : a = b
  · simp [h, ofSafeInt]
  · have hne : ofSafeInt a ≠ ofSafeInt b := fun heq => h (ofSafeInt_injective heq)
    simp [h, hne]

end Number

end ChangeGate
