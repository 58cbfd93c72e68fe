import ChangeGate.Identifier.Ulid
import ChangeGate.Proofs.Identifier.Base32
/-!
# Identifiers in order

An id is a numeral of 26 digits, the time in front of the random bits. So ids of different
milliseconds sort as their times do, whatever their random bits, and ids of one millisecond differ
as soon as one of the random bytes does (`encode_ordered`).
-/

namespace ChangeGate.Ulid

open Base32

/-! ## Random bits -/

/-- The bytes are the digits of base 256, the first one in front. -/
theorem randomBits_eq (bytes : List UInt8) :
    randomBits bytes = Nat.ofDigits 256 (bytes.reverse.map UInt8.toNat) := by
  induction bytes using List.reverseRecOn with
  | nil => rfl
  | append_singleton bytes byte ih =>
    have hstep : randomBits (bytes ++ [byte]) = randomBits bytes <<< 8 ||| byte.toNat := by
      rw [randomBits, List.foldl_concat, ← randomBits]
    rw [hstep, ← Nat.shiftLeft_add_eq_or_of_lt byte.toNat_lt, Nat.shiftLeft_eq, ih,
      List.reverse_append, List.reverse_singleton, List.singleton_append, List.map_cons,
      Nat.ofDigits_cons]
    omega

theorem lt_of_mem_bytes {bytes : List UInt8} {d : Nat}
    (hd : d ∈ bytes.reverse.map UInt8.toNat) : d < 256 := by
  obtain ⟨byte, -, rfl⟩ := List.mem_map.1 hd
  exact byte.toNat_lt

theorem randomBits_lt (bytes : List UInt8) : randomBits bytes < 256 ^ bytes.length := by
  have hdigits : ∀ d ∈ bytes.reverse.map UInt8.toNat, d < 256 := fun _ => lt_of_mem_bytes
  have hlt := Nat.ofDigits_lt_base_pow_length (by decide : 1 < 256) hdigits
  simpa [randomBits_eq] using hlt

/-- The random part has room for them. -/
theorem randomBits_fits {bytes : List UInt8} (h : bytes.length = randomBytes) :
    randomBits bytes < 32 ^ randomLength := by
  have hlt := randomBits_lt bytes
  have hwidth : 256 ^ randomBytes = 32 ^ randomLength := by decide
  rwa [h, hwidth] at hlt

/-- **Bytes are told apart by their bits.** -/
theorem randomBits_injective {p q : List UInt8} (hlength : p.length = q.length)
    (h : randomBits p = randomBits q) : p = q := by
  rw [randomBits_eq, randomBits_eq] at h
  have hdigits := Nat.ofDigits_inj_of_len_eq (by decide : 1 < 256) (by simpa using hlength)
    (fun _ => lt_of_mem_bytes) (fun _ => lt_of_mem_bytes) h
  have hinjective : Function.Injective UInt8.toNat := fun _ _ => UInt8.toNat_inj.1
  exact List.reverse_injective (List.map_injective_iff.2 hinjective hdigits)

/-! ## Ids -/

theorem toList_encode (time : Int) (random : Nat) :
    (encode time random).toList =
      Base32.encode timeLength time ++ Base32.encode randomLength random := by
  rw [encode, String.toList_ofList]

/-- **An id is a numeral of 26 digits.** -/
theorem isNumeral_toList_encode (time random : Nat) :
    IsNumeral 26 (encode time random).toList := by
  obtain ⟨htime, htimeDigits⟩ := isNumeral_encode timeLength time
  obtain ⟨hrandom, hrandomDigits⟩ := isNumeral_encode randomLength random
  rw [toList_encode]
  refine ⟨by rw [List.length_append, htime, hrandom]; rfl, fun c hc => ?_⟩
  exact (List.mem_append.1 hc).elim (htimeDigits c) (hrandomDigits c)

/-- **The time counts for more than all random bits.** -/
theorem value_toList_encode {time : Nat} (htime : time < 32 ^ timeLength) (random : Nat) :
    value (encode time random).toList =
      random % 32 ^ randomLength + 32 ^ randomLength * time := by
  rw [toList_encode, value_append, value_encode, value_encode, Nat.mod_eq_of_lt htime,
    (isNumeral_encode randomLength random).length]

theorem precedes_of_time_lt {a b : Nat} (hlt : a < b) (hb : b < 32 ^ timeLength)
    (r r' : Nat) : Text.Precedes (encode a r) (encode b r') := by
  have hvalue : value (encode a r).toList < value (encode b r').toList := by
    have hrandom := Nat.mod_lt r (Nat.pow_pos (by decide : 0 < 32) (n := randomLength))
    have htime := Nat.mul_le_mul_left (32 ^ randomLength) (Nat.succ_le_of_lt hlt)
    rw [Nat.mul_succ] at htime
    rw [value_toList_encode (hlt.trans hb), value_toList_encode hb]
    omega
  simpa using (isNumeral_toList_encode a r).precedes (isNumeral_toList_encode b r') hvalue

/-- **Ids of one millisecond are the same only if their random bytes are.** -/
theorem eq_of_encode_eq {time : Int} {p q : List UInt8} (hp : p.length = randomBytes)
    (hq : q.length = randomBytes)
    (h : encode time (randomBits p) = encode time (randomBits q)) : p = q := by
  have hlists := congrArg String.toList h
  rw [toList_encode, toList_encode, List.append_cancel_left_eq] at hlists
  have hvalues := congrArg value hlists
  rw [value_encode, value_encode, Nat.mod_eq_of_lt (randomBits_fits hp),
    Nat.mod_eq_of_lt (randomBits_fits hq)] at hvalues
  exact randomBits_injective (hp.trans hq.symm) hvalues

/-- **Numerals of base 32 are ordered as their numbers are, and so ids by their times.** A numeral
has the width that is asked for and the value of its number, less what the width cannot hold; the
numbers that it can hold have each a numeral, and no two the same. -/
theorem encode_ordered :
    (∀ (width : Nat) (v : Int), 0 ≤ v →
      IsNumeral width (Base32.encode width v) ∧
        (value (Base32.encode width v) : Int) = v % 32 ^ width) ∧
    (∀ width : Nat,
      Set.BijOn (Base32.encode width) {v | 0 ≤ v ∧ v < 32 ^ width} {cs | IsNumeral width cs}) ∧
    (∀ (width : Nat) (v w : Int), 0 ≤ v → v < w → w < 32 ^ width →
      Text.Precedes (.ofList (Base32.encode width v)) (.ofList (Base32.encode width w))) ∧
    (∀ (x : Number) (time : Int) (random : Nat), x.toInt? = some time →
      ofNumber? x random = some (encode time random)) ∧
    (∀ (a b : Int) (r r' : Nat), 0 ≤ a → a < b → b < 2 ^ 50 →
      IsNumeral 26 (encode a r).toList ∧ IsNumeral 26 (encode b r').toList ∧
        Text.Precedes (encode a r) (encode b r')) ∧
    ∀ (time : Int) (p q : List UInt8), p.length = randomBytes → q.length = randomBytes →
      encode time (randomBits p) = encode time (randomBits q) → p = q := by
  refine ⟨?_, bijOn_encode, ?_, ?_, ?_, fun _ _ _ => eq_of_encode_eq⟩
  · intro width v hv
    lift v to Nat using hv
    rw [value_encode]
    exact ⟨isNumeral_encode width v, by push_cast; rfl⟩
  · intro width v w hv hlt hw
    lift v to Nat using hv
    lift w to Nat using by omega
    exact precedes_encode (by exact_mod_cast hlt) (by exact_mod_cast hw)
  · intro x time random htime
    rw [ofNumber?, htime, Option.map_some]
  · intro a b r r' ha hlt hb
    lift a to Nat using ha
    lift b to Nat using by omega
    have hwidth : 32 ^ timeLength = 2 ^ 50 := by decide
    refine ⟨isNumeral_toList_encode a r, isNumeral_toList_encode b r',
      precedes_of_time_lt (by exact_mod_cast hlt) ?_ r r'⟩
    rw [hwidth]
    exact_mod_cast hb

/-- A numeral that has lost a digit, and two of which the second has a digit more than the first
needs; the id of a time as a number; the ids of a millisecond and the next, where the random bits
would be the other way round; and those of one millisecond, of which the last bit tells. -/
theorem zeros_and_ones_ordered :
    (IsNumeral 2 (Base32.encode 2 1055) ∧ (value (Base32.encode 2 1055) : Int) = 1055 % 32 ^ 2) ∧
    Text.Precedes (.ofList (Base32.encode 3 31)) (.ofList (Base32.encode 3 32)) ∧
    ofNumber? (.ofSafeInt .one) 7 = some (encode 1 7) ∧
    (IsNumeral 26 (encode 1700000000000 (2 ^ 80 - 1)).toList ∧
      IsNumeral 26 (encode 1700000000001 0).toList ∧
      Text.Precedes (encode 1700000000000 (2 ^ 80 - 1)) (encode 1700000000001 0)) ∧
    encode 5 (randomBits [0, 0, 0, 0, 0, 0, 0, 0, 0, 1]) ≠
      encode 5 (randomBits [0, 0, 0, 0, 0, 0, 0, 0, 0, 0]) :=
  have ⟨hnumerals, _, horder, hids, htimes, hbits⟩ := encode_ordered
  ⟨hnumerals 2 1055 (by decide), horder 3 31 32 (by decide) (by decide) (by decide),
    hids _ 1 7 (Number.toInt?_ofSafeInt .one),
    htimes 1700000000000 1700000000001 _ _ (by decide) (by decide) (by decide),
    fun h => absurd (hbits 5 _ _ rfl rfl h) (by decide)⟩

end ChangeGate.Ulid
