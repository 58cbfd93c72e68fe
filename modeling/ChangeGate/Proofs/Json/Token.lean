import ChangeGate.Json.Parser
import ChangeGate.Json.Printer
import ChangeGate.Proofs.Number.Integers
/-!
# Tokens read back

A string and a number are read back from how they are written, whatever follows. For a number
that is to say: whatever cannot go on from it. `Number.Legible` names the numbers that are read
back, and the safe integers are among them.
-/

namespace ChangeGate

namespace Json

/-! ## Strings -/

/-- An escape of one letter. -/
theorem readUnits_letter {letter c : Char} (hletter : Escape.character? letter = some c)
    (hu : letter ≠ 'u') (rest : List Char) :
    readUnits ('\\' :: letter :: rest) =
      (readUnits rest).map fun r => (Text.charUnits c ++ r.1, r.2) := by
  rw [readUnits, if_neg (by decide), if_pos rfl, hletter]
  intro _ _ _ _ _ heq
  exact absurd heq hu

/-- An escape of four digits, of a code unit below the blank. -/
theorem readUnits_digits {n : Nat} (hn : n < 32) (rest : List Char) :
    readUnits
        ('\\' :: 'u' :: '0' :: '0' :: Escape.digit (n / 16) :: Escape.digit (n % 16) :: rest) =
      (readUnits rest).map fun r => (n :: r.1, r.2) := by
  have hunit : Escape.unit? '0' '0' (Escape.digit (n / 16)) (Escape.digit (n % 16)) = some n := by
    have hzero : Escape.digitValue? '0' = some 0 := by decide
    simp only [Escape.unit?, hzero, Escape.digitValue?_digit (show n / 16 < 16 by omega),
      Escape.digitValue?_digit (show n % 16 < 16 by omega), Option.pure_def, Option.bind_eq_bind,
      Option.bind_some, Option.some.injEq]
    omega
  rw [readUnits, if_neg (by decide), if_pos rfl]
  simp only [hunit]

/-- A character that needs no escape. -/
theorem readUnits_plain {c : Char} (hletter : Escape.letter? c = none) (hblank : ¬ c.toNat < 32)
    (rest : List Char) :
    readUnits (c :: rest) = (readUnits rest).map fun r => (Text.charUnits c ++ r.1, r.2) := by
  have hquote : c ≠ '"' := by
    rintro rfl
    exact absurd hletter (by decide)
  have hbackslash : c ≠ '\\' := by
    rintro rfl
    exact absurd hletter (by decide)
  rw [readUnits.eq_def]
  simp only [if_neg hquote, if_neg hbackslash, if_neg hblank]

/-- **A character inside quotes reads back as its code units.** -/
theorem readUnits_write (c : Char) (rest : List Char) :
    readUnits (Escape.write c ++ rest) =
      (readUnits rest).map fun r => (Text.charUnits c ++ r.1, r.2) := by
  unfold Escape.write
  split
  · rename_i letter hletter
    have hcharacter := Escape.character?_of_letter? hletter
    have hu : letter ≠ 'u' := by
      rintro rfl
      rw [show Escape.character? 'u' = none by decide] at hcharacter
      cases hcharacter
    exact readUnits_letter hcharacter hu rest
  · rename_i hletter
    split
    · rename_i hlow
      have hunits : Text.charUnits c = [c.toNat] := if_pos (by omega)
      rw [hunits]
      exact readUnits_digits hlow rest
    · rename_i hlow
      exact readUnits_plain hletter hlow rest

theorem readUnits_quoted (cs rest : List Char) :
    readUnits (cs.flatMap Escape.write ++ '"' :: rest) =
      .ok (cs.flatMap Text.charUnits, rest) := by
  induction cs with
  | nil => rw [List.flatMap_nil, List.nil_append, readUnits.eq_def]; rfl
  | cons c cs ih =>
    rw [List.flatMap_cons, List.append_assoc, readUnits_write, ih]
    rfl

/-- **A string is read back from what stands behind its opening quote.** -/
theorem readString_quoted (s : String) (rest : List Char) :
    readString (s.toList.flatMap Escape.write ++ '"' :: rest) = .ok (s, rest) := by
  rw [readString, readUnits_quoted]
  simp only [Except.map, Text.ofUnits_flatMap_charUnits, String.ofList_toList]

/-! ## Numbers -/

/-- **What may follow a number:** nothing that a number goes on with. -/
def EndsNumber (rest : List Char) : Prop :=
  ∀ c ∈ rest.head?, c.isDigit = false ∧ c ≠ '.' ∧ c ≠ 'e' ∧ c ≠ 'E'

theorem EndsNumber.nil : EndsNumber [] := nofun

variable {rest : List Char}

/-- Nothing goes on with digits there. -/
theorem EndsNumber.head (hrest : EndsNumber rest) : ∀ c ∈ rest.head?, c.isDigit = false :=
  fun c hc => (hrest c hc).1

theorem digits_append (ds : List Char) (hds : ∀ c ∈ ds, c.isDigit = true)
    (hrest : ∀ c ∈ rest.head?, c.isDigit = false) : digits (ds ++ rest) = (ds, rest) := by
  have hnone : rest.takeWhile Char.isDigit = [] ∧ rest.dropWhile Char.isDigit = rest := by
    cases rest with
    | nil => exact ⟨rfl, rfl⟩
    | cons c cs =>
      have hc := hrest c rfl
      simp [hc]
  rw [digits, List.takeWhile_append_of_pos hds, List.dropWhile_append_of_pos hds, hnone.1, hnone.2,
    List.append_nil]

theorem readFraction_of_ends (hrest : EndsNumber rest) : readFraction rest = .ok ([], rest) := by
  cases rest with
  | nil => rfl
  | cons c cs => rw [readFraction, if_neg (hrest c rfl).2.1]

theorem readExponent_of_ends (hrest : EndsNumber rest) : readExponent rest = .ok (0, rest) := by
  cases rest with
  | nil => rfl
  | cons c cs =>
    obtain ⟨-, -, he, hE⟩ := hrest c rfl
    rw [readExponent, if_neg (by simp [he, hE])]

/-- Only the digits of zero start with a zero. -/
theorem toDigits_of_head?_eq_zero {n : Nat} (h : (Nat.toDigits 10 n).head? = some '0') :
    Nat.toDigits 10 n = ['0'] := by
  induction n using Nat.strongRecOn with
  | ind n ih =>
    by_cases hsmall : n < 10
    · rw [Nat.toDigits_of_lt_base hsmall] at h ⊢
      simpa using h
    · -- a number of several digits starts as its tenth does, which is no zero by then
      have hlarge : 10 ≤ n := by omega
      rw [Nat.toDigits_of_base_le (by decide) hlarge, List.head?_append,
        Option.or_of_isSome (by simp)] at h
      have hzero := congrArg (Nat.ofDigitChars 10 · 0) (ih (n / 10) (by omega) h)
      simp only [Nat.ofDigitChars_ten_toDigits] at hzero
      have hvalue : Nat.ofDigitChars 10 ['0'] 0 = 0 := by decide
      omega

/-- The digits of a whole number. -/
theorem readUnsigned_toDigits (negative : Bool) (n : Nat) (hrest : EndsNumber rest) :
    readUnsigned negative (Nat.toDigits 10 n ++ rest) = .ok (⟨negative, n, 0⟩, rest) := by
  have hdigits := digits_append (Nat.toDigits 10 n)
    (fun c hc => Nat.isDigit_of_mem_toDigits (by decide) (by decide) hc) hrest.head
  have hzero : ¬ ((Nat.toDigits 10 n).head? = some '0' ∧ Nat.toDigits 10 n ≠ ['0']) :=
    fun h => h.2 (toDigits_of_head?_eq_zero h.1)
  simp only [readUnsigned, hdigits, Nat.toDigits_ne_nil, if_false, if_neg hzero,
    readFraction_of_ends hrest, readExponent_of_ends hrest, List.append_nil,
    Nat.ofDigitChars_ten_toDigits]
  rfl

/-- **The digits of a safe integer,** behind a minus sign if it is negative. -/
theorem readDecimal_safeInt (n : SafeInt) (hrest : EndsNumber rest) :
    readDecimal (n.text.toList ++ rest) = .ok (⟨decide (n.val < 0), n.val.natAbs, 0⟩, rest) := by
  rw [SafeInt.text, Int.toString_eq_repr, Int.repr_eq_if]
  split
  · rename_i hpos
    have hsign : decide (n.val < 0) = false := by simpa using hpos
    have habs : n.val.toNat = n.val.natAbs := by omega
    have hread := readUnsigned_toDigits false n.val.natAbs hrest
    rw [Nat.toList_repr, habs, hsign]
    cases hds : Nat.toDigits 10 n.val.natAbs with
    | nil => exact absurd hds Nat.toDigits_ne_nil
    | cons c cs =>
      have hdigit : c.isDigit = true :=
        Nat.isDigit_of_mem_toDigits (b := 10) (n := n.val.natAbs) (by decide) (by decide)
          (by rw [hds]; exact List.mem_cons_self)
      have hminus : c ≠ '-' := by
        rintro rfl
        cases hdigit
      rw [List.cons_append, readDecimal, if_neg hminus, ← List.cons_append, ← hds, hread]
  · rename_i hneg
    have hsign : decide (n.val < 0) = true := by simpa using hneg
    have habs : (-n.val).toNat = n.val.natAbs := by omega
    rw [String.toList_append, Nat.toList_repr, habs, hsign]
    exact readUnsigned_toDigits true n.val.natAbs hrest

end Json

namespace Number

theorem ofQuotient_safeInt (n : SafeInt) :
    ofQuotient (decide (n.val < 0)) (n.val.natAbs * stepsPerOne) 1 = ofSafeInt n := by
  have hsign : n.val * (stepsPerOne : Int) < 0 ↔ n.val < 0 := by
    have hright := Int.mul_lt_mul_right (b := n.val) (c := 0) cast_stepsPerOne_pos
    rwa [Int.zero_mul] at hright
  have hsteps : (n.val * (stepsPerOne : Int)).natAbs = n.val.natAbs * stepsPerOne := by
    rw [Int.natAbs_mul, Int.natAbs_natCast]
  have hexact := ofQuotient_of_isBinary64 (isBinary64_safeInt n)
  rwa [decide_eq_decide.2 hsign, hsteps] at hexact

/-- **A number that is read back from its text,** whatever follows that does not go on with it. -/
def Legible (x : Number) : Prop :=
  ∀ rest, Json.EndsNumber rest →
    ∃ d, Json.readDecimal (Json.numberText x ++ rest) = .ok (d, rest) ∧ d.toNumber = x

/-- **The decimal of a safe integer is that integer.** -/
theorem toNumber_safeInt (n : SafeInt) :
    (⟨decide (n.val < 0), n.val.natAbs, 0⟩ : Decimal).toNumber = ofSafeInt n := by
  have hlength : Decimal.length n.val.natAbs ≤ 16 := by
    refine (Nat.length_toDigits_le_iff (by decide) (by decide)).2 ?_
    have := n.lower
    have := n.upper
    omega
  unfold Decimal.toNumber
  dsimp only
  split
  · rename_i h
    have hzero : n.val = 0 := by omega
    have hn : n = ⟨0, by decide, by decide⟩ := SafeInt.ext hzero
    subst hn
    simp [zero, ofSafeInt]
  · rw [if_neg (by omega)]
    have hplaces : n.val.natAbs * 10 ^ 0 * stepsPerOne = n.val.natAbs * stepsPerOne := by
      rw [Nat.pow_zero, Nat.mul_one]
    have h := ofQuotient_safeInt n
    rw [← hplaces] at h
    exact h

/-- **A safe integer is read back from its text.** -/
theorem legible_ofSafeInt (n : SafeInt) : (ofSafeInt n).Legible := by
  intro rest hrest
  refine ⟨_, ?_, toNumber_safeInt n⟩
  have htext : Json.numberText (ofSafeInt n) = n.text.toList := by
    have hsafe := toSafeInt?_ofSafeInt n
    rw [ofSafeInt] at hsafe ⊢
    simp only [Json.numberText, text, hsafe]
  rw [htext]
  exact Json.readDecimal_safeInt n hrest

end Number

end ChangeGate
