import ChangeGate.Proofs.Json.Token
import ChangeGate.Proofs.Number.Decimal
/-!
# Numerals read back

However the digits of a number are laid out, as a whole number, around a point, behind leading
zeros or with an exponent, they are read as a decimal of the same value (`readUnsigned_layout`).
So a decimal is read as one of the same number (`readDecimal_text`), and every finite number is
read back from its text (`legible_finite`).
-/

namespace ChangeGate

namespace Json

variable {whole places sig rest after : List Char}

/-! ## Parts of a numeral -/

/-- **A run of digits.** -/
def Numeric (cs : List Char) : Prop :=
  ∀ c ∈ cs, c.isDigit = true

theorem numeric_toDigits (n : Nat) : Numeric (Nat.toDigits 10 n) :=
  fun _ hc => Nat.isDigit_of_mem_toDigits (by decide) (by decide) hc

theorem numeric_replicate_zero (n : Nat) : Numeric (List.replicate n '0') := by
  intro c hc
  rw [List.eq_of_mem_replicate hc]
  rfl

theorem Numeric.append (h : Numeric whole) (h' : Numeric places) : Numeric (whole ++ places) :=
  fun c hc => (List.mem_append.1 hc).elim (h c) (h' c)

/-- The digits behind a point. -/
theorem readFraction_point (hplaces : Numeric places) (hne : places ≠ [])
    (hrest : ∀ c ∈ rest.head?, c.isDigit = false) :
    readFraction ('.' :: (places ++ rest)) = .ok (places, rest) := by
  rw [readFraction, if_pos rfl, digits_append places hplaces hrest]
  exact if_neg hne

/-- **An exponent,** with its sign. -/
theorem readExponent_text (e : Int) (hrest : EndsNumber rest) :
    readExponent ('e' :: (Decimal.exponentText e ++ rest)) = .ok (e, rest) := by
  have hread : ∀ negative, readSignedDigits negative (Nat.toDigits 10 e.natAbs ++ rest) =
      .ok (if negative then -(e.natAbs : Int) else e.natAbs, rest) := by
    intro negative
    simp only [readSignedDigits, digits_append _ (numeric_toDigits _) hrest.head,
      Nat.toDigits_ne_nil, if_false, Nat.ofDigitChars_ten_toDigits]
  rw [readExponent, if_pos (Or.inl rfl), Decimal.exponentText, List.cons_append,
    readExponentDigits]
  split
  · rename_i hneg
    have hsize : -(e.natAbs : Int) = e := by omega
    rw [if_neg (by decide), if_pos rfl, hread, if_pos rfl, hsize]
  · rename_i hpos
    have hsize : (e.natAbs : Int) = e := by omega
    rw [if_pos rfl, hread, if_neg (by decide), hsize]

/-- **A numeral from its parts.** -/
theorem readUnsigned_parts (negative : Bool) {e : Int} {end_ : List Char} (hwhole : Numeric whole)
    (hne : whole ≠ []) (hzero : whole.head? = some '0' → whole = ['0'])
    (hrest : ∀ c ∈ rest.head?, c.isDigit = false)
    (hfraction : readFraction rest = .ok (places, after))
    (hexponent : readExponent after = .ok (e, end_)) :
    readUnsigned negative (whole ++ rest) =
      .ok (⟨negative, Nat.ofDigitChars 10 (whole ++ places) 0, e - places.length⟩, end_) := by
  have hnotZero : ¬ (whole.head? = some '0' ∧ whole ≠ ['0']) := fun h => h.2 (hzero h.1)
  simp only [readUnsigned, digits_append whole hwhole hrest, hne, if_false, if_neg hnotZero,
    hfraction, hexponent]

/-! ## Layouts -/

/-- A separator is no digit. -/
theorem head_of_cons {c : Char} (hc : c.isDigit = false) (cs : List Char) :
    ∀ d ∈ (c :: cs).head?, d.isDigit = false := by
  rintro d ⟨⟩
  exact hc

section Layouts

variable {point : Int} (hsig : Numeric sig) (hhead : sig.head? ≠ some '0') (hrest : EndsNumber rest)

include hsig hhead hrest

/-- Digits, and zeros up to the point. -/
theorem readUnsigned_whole (negative : Bool) (hne : sig ≠ []) (zeros : Nat) :
    readUnsigned negative (sig ++ List.replicate zeros '0' ++ rest) =
      .ok (⟨negative, Nat.ofDigitChars 10 sig 0 * 10 ^ zeros, 0⟩, rest) := by
  have hfirst : (sig ++ List.replicate zeros '0').head? ≠ some '0' := by
    rwa [List.head?_append, Option.or_of_isSome (by simpa using hne)]
  rw [readUnsigned_parts negative (hsig.append (numeric_replicate_zero zeros)) (by simp [hne])
    (fun h => absurd h hfirst) hrest.head (readFraction_of_ends hrest) (readExponent_of_ends hrest),
    List.append_nil, Nat.ofDigitChars_append, Nat.ofDigitChars_replicate_zero, Nat.mul_comm]
  rfl

/-- A point between digits. -/
theorem readUnsigned_point (negative : Bool) {n : Nat} (hn : 0 < n) (hlt : n < sig.length) :
    readUnsigned negative (sig.take n ++ '.' :: (sig.drop n ++ rest)) =
      .ok (⟨negative, Nat.ofDigitChars 10 sig 0, 0 - (sig.length - n : Nat)⟩, rest) := by
  have hfirst : (sig.take n).head? ≠ some '0' := by
    rwa [List.head?_take, if_neg (by omega)]
  have hne : sig.take n ≠ [] := by
    rw [Ne, List.take_eq_nil_iff]
    rintro (rfl | rfl)
    · exact absurd hn (Nat.lt_irrefl 0)
    · exact absurd hlt (Nat.not_lt_zero n)
  have hbehind : sig.drop n ≠ [] := by
    rw [Ne, List.drop_eq_nil_iff]
    omega
  rw [readUnsigned_parts negative (fun c hc => hsig c (List.mem_of_mem_take hc)) hne
    (fun h => absurd h hfirst) (head_of_cons (by decide) _)
    (readFraction_point (fun c hc => hsig c (List.mem_of_mem_drop hc)) hbehind hrest.head)
    (readExponent_of_ends hrest), List.take_append_drop, List.length_drop]

omit hhead in
/-- Digits behind a zero, a point and more zeros. -/
theorem readUnsigned_zeros (negative : Bool) (hne : sig ≠ []) (zeros : Nat) :
    readUnsigned negative ('0' :: '.' :: (List.replicate zeros '0' ++ sig ++ rest)) =
      .ok (⟨negative, Nat.ofDigitChars 10 sig 0, 0 - (zeros + sig.length : Nat)⟩, rest) := by
  have hread := readUnsigned_parts negative (numeric_replicate_zero 1) (by decide)
    (fun _ => rfl) (head_of_cons (by decide) _)
    (readFraction_point ((numeric_replicate_zero zeros).append hsig) (by simp [hne]) hrest.head)
    (readExponent_of_ends hrest)
  have hvalue : Nat.ofDigitChars 10 (List.replicate 1 '0' ++ (List.replicate zeros '0' ++ sig)) 0 =
      Nat.ofDigitChars 10 sig 0 := by
    rw [← List.append_assoc, Nat.ofDigitChars_append, List.replicate_append_replicate,
      Nat.ofDigitChars_replicate_zero, Nat.mul_zero]
  rw [hvalue, List.length_append, List.length_replicate] at hread
  exact hread

/-- One digit, the others behind a point if there are any, and an exponent. -/
theorem readUnsigned_exponent (negative : Bool) {first : Char} {later : List Char} (e : Int)
    (heq : sig = first :: later) :
    readUnsigned negative
        ((if later = [] then [first] else first :: '.' :: later) ++
          'e' :: Decimal.exponentText e ++ rest) =
      .ok (⟨negative, Nat.ofDigitChars 10 sig 0, e - later.length⟩, rest) := by
  subst heq
  have hfirst : first ≠ '0' := by simpa using hhead
  have hdigit : Numeric [first] := by
    intro c hc
    rw [List.mem_singleton.1 hc]
    exact hsig first List.mem_cons_self
  have hzero : [first].head? = some '0' → [first] = ['0'] := fun h =>
    absurd (by simpa using h) hfirst
  have hexponent := readExponent_text e hrest
  split
  · rename_i hlater
    subst hlater
    exact readUnsigned_parts negative hdigit (by simp) hzero (head_of_cons (by decide) _)
      (by rw [readFraction, if_neg (by decide)]; rfl) hexponent
  · rename_i hlater
    have hnumeric : Numeric later := fun c hc => hsig c (List.mem_cons_of_mem first hc)
    have hfraction := readFraction_point hnumeric hlater
      (head_of_cons (by decide : 'e'.isDigit = false) (Decimal.exponentText e ++ rest))
    have hread := readUnsigned_parts negative hdigit (by simp) hzero
      (head_of_cons (by decide) _) hfraction hexponent
    simpa using hread

/-- **However digits are laid out, their value is read,** perhaps with zeros in place of a part of
the exponent. -/
theorem readUnsigned_layout (negative : Bool) (hne : sig ≠ []) (point : Int) :
    ∃ (zeros : Nat) (e : Int), e + zeros = point - sig.length ∧
      readUnsigned negative (Decimal.layout sig point ++ rest) =
        .ok (⟨negative, Nat.ofDigitChars 10 sig 0 * 10 ^ zeros, e⟩, rest) := by
  unfold Decimal.layout
  split
  · exact ⟨_, _, by omega, readUnsigned_whole hsig hhead hrest negative hne _⟩
  split
  · refine ⟨0, 0 - (sig.length - point.toNat : Nat), by omega, ?_⟩
    rw [Nat.pow_zero, Nat.mul_one, List.append_assoc, List.cons_append]
    exact readUnsigned_point hsig hhead hrest negative (by omega) (by omega)
  split
  · refine ⟨0, 0 - ((-point).toNat + sig.length : Nat), by omega, ?_⟩
    rw [Nat.pow_zero, Nat.mul_one]
    exact readUnsigned_zeros hsig hrest negative hne _
  · cases sig with
    | nil => exact absurd rfl hne
    | cons first later =>
      have hread := readUnsigned_exponent hsig hhead hrest negative (point - 1) rfl
      refine ⟨0, point - 1 - later.length, by rw [List.length_cons]; omega, ?_⟩
      rw [Nat.pow_zero, Nat.mul_one]
      cases later <;> simpa using hread

end Layouts

/-! ## Decimals -/

/-- **The significant digits of a decimal,** with the zeros that they leave out. -/
theorem exists_significantDigits {d : Decimal} (hd : d.digits ≠ 0) :
    ∃ zeros, Nat.toDigits 10 d.digits = d.significantDigits ++ List.replicate zeros '0' ∧
      d.significantDigits ≠ [] ∧ d.significantDigits.head? ≠ some '0' := by
  have hzeros : ((Nat.toDigits 10 d.digits).reverse.takeWhile (· = '0')).reverse =
      List.replicate ((Nat.toDigits 10 d.digits).reverse.takeWhile (· = '0')).reverse.length
        '0' := by
    refine List.eq_replicate_of_mem fun c hc => ?_
    have hall := List.all_eq_true.1 List.all_takeWhile c (List.mem_reverse.1 hc)
    exact of_decide_eq_true hall
  have hwhole : Nat.toDigits 10 d.digits = d.significantDigits ++
      ((Nat.toDigits 10 d.digits).reverse.takeWhile (· = '0')).reverse := by
    rw [Decimal.significantDigits, ← List.reverse_append, List.takeWhile_append_dropWhile,
      List.reverse_reverse]
  rw [hzeros] at hwhole
  have hne : d.significantDigits ≠ [] := by
    intro hnil
    have hvalue := congrArg (Nat.ofDigitChars 10 · 0) hwhole
    simp only [hnil, List.nil_append, Nat.ofDigitChars_replicate_zero,
      Nat.ofDigitChars_ten_toDigits, Nat.mul_zero] at hvalue
    exact hd hvalue
  refine ⟨_, hwhole, hne, fun hhead => ?_⟩
  have hfirst : (Nat.toDigits 10 d.digits).head? = some '0' := by
    rw [hwhole, List.head?_append, hhead]
    rfl
  have hvalue := congrArg (Nat.ofDigitChars 10 · 0) (toDigits_of_head?_eq_zero hfirst)
  simp only [Nat.ofDigitChars_ten_toDigits] at hvalue
  exact hd hvalue

/-- What is read without a sign is read as a number. -/
theorem readDecimal_of_readUnsigned {r : Decimal × List Char} {cs : List Char}
    (h : readUnsigned false cs = .ok r) : readDecimal cs = .ok r := by
  cases cs with
  | nil => cases h
  | cons c cs =>
    have hminus : c ≠ '-' := by
      rintro rfl
      cases h
    rw [readDecimal, if_neg hminus, h]

/-- **A decimal is read as one of the same number.** -/
theorem readDecimal_text {d : Decimal} (hd : d.digits ≠ 0) (hrest : EndsNumber rest) :
    ∃ d', readDecimal (d.text ++ rest) = .ok (d', rest) ∧ d'.toNumber = d.toNumber := by
  obtain ⟨zeros, hwhole, hne, hhead⟩ := exists_significantDigits hd
  have hnumeric : Numeric d.significantDigits := by
    intro c hc
    exact numeric_toDigits d.digits c (by rw [hwhole]; exact List.mem_append_left _ hc)
  obtain ⟨more, e, hplace, hread⟩ := readUnsigned_layout hnumeric hhead hrest d.negative hne
    (d.exponent + Decimal.length d.digits)
  have hvalue : d.digits = Nat.ofDigitChars 10 d.significantDigits 0 * 10 ^ zeros := by
    have hdigits := congrArg (Nat.ofDigitChars 10 · 0) hwhole
    simpa [Nat.ofDigitChars_append, Nat.mul_comm] using hdigits
  have hnonzero : Nat.ofDigitChars 10 d.significantDigits 0 ≠ 0 := by
    intro hzero
    rw [hzero, Nat.zero_mul] at hvalue
    exact hd hvalue
  have hlength : Decimal.length d.digits = d.significantDigits.length + zeros := by
    rw [Decimal.length, hwhole, List.length_append, List.length_replicate]
  have hexponent : e + more = d.exponent + zeros := by omega
  have hsame : (⟨d.negative, Nat.ofDigitChars 10 d.significantDigits 0 * 10 ^ more, e⟩ :
      Decimal).toNumber = d.toNumber := by
    rw [Decimal.toNumber_mul_pow _ hnonzero, hexponent, ← Decimal.toNumber_mul_pow _ hnonzero,
      ← hvalue]
  refine ⟨_, ?_, hsame⟩
  rw [Decimal.text]
  cases hsign : d.negative with
  | true =>
    rw [hsign] at hread
    exact hread
  | false =>
    rw [hsign] at hread
    exact readDecimal_of_readUnsigned hread

end Json

namespace Number

/-- **Every finite number is read back from its text.** -/
theorem legible_finite (x : Binary64) : (finite x).Legible := by
  cases hsafe : (finite x).toSafeInt? with
  | some n =>
    rw [eq_ofSafeInt_of_toSafeInt? hsafe]
    exact legible_ofSafeInt n
  | none =>
    have hsteps : x.steps ≠ 0 := by
      intro hzero
      simp [toSafeInt?, toInt?, hzero, SafeInt.ofInt?] at hsafe
    intro rest hrest
    have htext : Json.numberText (finite x) = (Decimal.shortest x).text := by
      simp only [Json.numberText, text, hsafe, String.toList_ofList]
    have hnumber := Decimal.toNumber_shortest hsteps
    have hdigits : (Decimal.shortest x).digits ≠ 0 := by
      intro hzero
      rw [Decimal.toNumber, if_pos (Or.inl hzero)] at hnumber
      cases hnumber
      exact hsteps rfl
    rw [htext, ← hnumber]
    exact Json.readDecimal_text hdigits hrest

end Number

end ChangeGate
