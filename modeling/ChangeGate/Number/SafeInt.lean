/-!
# Safe integers

The integers that a 53-bit significand holds without a gap: those of absolute value at most
`2^53 - 1`. Change ids and version codes are such integers, so that two of them are never
confused by rounding.
-/

namespace ChangeGate

/-- **A safe integer.** The bounds are part of the value: a change id or a version code that is
not safe cannot be written down. -/
structure SafeInt where
  val : Int
  lower : -9007199254740991 ≤ val
  upper : val ≤ 9007199254740991
deriving DecidableEq

namespace SafeInt

def one : SafeInt := ⟨1, by decide, by decide⟩

def minusOne : SafeInt := ⟨-1, by decide, by decide⟩

/-- The safe integer of value `n`, if `n` is in range. -/
def ofInt? (n : Int) : Option SafeInt :=
  if h : -9007199254740991 ≤ n ∧ n ≤ 9007199254740991 then some ⟨n, h.1, h.2⟩ else none

@[ext] theorem ext {a b : SafeInt} (h : a.val = b.val) : a = b := by
  cases a; cases b; simp_all

@[simp] theorem ofInt?_val (n : SafeInt) : ofInt? n.val = some n := by
  simp [ofInt?, n.lower, n.upper]

theorem val_of_ofInt? {n : Int} {s : SafeInt} (h : ofInt? n = some s) : s.val = n := by
  unfold ofInt? at h
  split at h
  · cases h; rfl
  · cases h

/-- **Numeric order.** -/
instance : LE SafeInt := ⟨fun a b => a.val ≤ b.val⟩

/-- **Numeric order.** -/
instance : LT SafeInt := ⟨fun a b => a.val < b.val⟩

instance (a b : SafeInt) : Decidable (a ≤ b) := inferInstanceAs (Decidable (a.val ≤ b.val))

instance (a b : SafeInt) : Decidable (a < b) := inferInstanceAs (Decidable (a.val < b.val))

theorem le_def {a b : SafeInt} : a ≤ b ↔ a.val ≤ b.val := Iff.rfl

theorem lt_def {a b : SafeInt} : a < b ↔ a.val < b.val := Iff.rfl

/-- The decimal digits, after a minus sign if negative. -/
def text (n : SafeInt) : String :=
  toString n.val

end SafeInt

end ChangeGate
