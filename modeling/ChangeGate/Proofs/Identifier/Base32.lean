import Mathlib.Data.Nat.Digits.Lemmas
import ChangeGate.Identifier.Base32
import ChangeGate.Text.Units
/-!
# Numerals of base 32

`value` is the number that a numeral stands for, and the numerals of one width stand for the
numbers below a power of 32, each for one of its own: `encode` and `value` undo each other
(`value_encode`, `encode_value`). The digits are in the order of their code units, so that
numerals of one width sort as names in the order of their numbers (`IsNumeral.precedes`).
-/

namespace ChangeGate.Base32

/-! ## Digits -/

theorem length_alphabet : alphabet.length = 32 := by decide

/-- The digits ascend. -/
theorem alphabet_pairwise : alphabet.Pairwise (· < ·) := by decide +kernel

theorem alphabet_nodup : alphabet.Nodup :=
  alphabet_pairwise.imp fun hlt => Char.ne_of_lt hlt

theorem idxOf_lt {c : Char} (hc : c ∈ alphabet) : alphabet.idxOf c < 32 :=
  length_alphabet ▸ List.idxOf_lt_length_iff.2 hc

/-- **Every digit has a character of its own.** -/
theorem digit_natCast {d : Nat} (hd : d < 32) :
    ∃ c ∈ alphabet, alphabet.idxOf c = d ∧ digit d = [c] := by
  have hlength : d < alphabet.length := length_alphabet ▸ hd
  refine ⟨alphabet[d], List.getElem_mem hlength, alphabet_nodup.idxOf_getElem d hlength, ?_⟩
  simp [digit, hlength]

theorem digit_idxOf {c : Char} (hc : c ∈ alphabet) : digit (alphabet.idxOf c : Nat) = [c] := by
  obtain ⟨d, hd, hindex, hdigit⟩ := digit_natCast (idxOf_lt hc)
  rw [hdigit, (List.idxOf_inj hd).1 hindex]

/-- A greater digit has a later character. -/
theorem lt_of_idxOf_lt {c d : Char} (hc : c ∈ alphabet) (hd : d ∈ alphabet)
    (hlt : alphabet.idxOf c < alphabet.idxOf d) : c < d := by
  have hbefore := List.pairwise_iff_getElem.1 alphabet_pairwise _ _
    (List.idxOf_lt_length_iff.2 hc) (List.idxOf_lt_length_iff.2 hd) hlt
  rwa [List.getElem_idxOf, List.getElem_idxOf] at hbefore

/-- A digit is one code unit. -/
theorem charUnits_of_mem {c : Char} (hc : c ∈ alphabet) : Text.charUnits c = [c.toNat] := by
  -- tested over the digits: as a bounded quantifier it would be tested over every character
  have hsmall : alphabet.all fun c => decide (c.toNat < 0x10000) := by decide +kernel
  exact if_pos (of_decide_eq_true (List.all_eq_true.1 hsmall c hc))

/-! ## Values -/

/-- **A numeral of a width.** -/
structure IsNumeral (width : Nat) (cs : List Char) : Prop where
  length : cs.length = width
  digits : ∀ c ∈ cs, c ∈ alphabet

/-- **The number that a numeral stands for,** by the places of its digits. -/
def value (cs : List Char) : Nat :=
  Nat.ofDigits 32 (cs.reverse.map alphabet.idxOf)

variable {width : Nat} {cs ds : List Char} {c : Char}

/-- **What is in front counts for more,** by the places of what is behind. -/
theorem value_append (cs ds : List Char) :
    value (cs ++ ds) = value ds + 32 ^ ds.length * value cs := by
  simp [value, Nat.ofDigits_append]

theorem value_singleton (c : Char) : value [c] = alphabet.idxOf c := by
  simp [value]

theorem value_cons (c : Char) (cs : List Char) :
    value (c :: cs) = value cs + 32 ^ cs.length * alphabet.idxOf c := by
  rw [← List.singleton_append, value_append, value_singleton]

theorem value_concat (cs : List Char) (c : Char) :
    value (cs ++ [c]) = alphabet.idxOf c + 32 * value cs := by
  rw [value_append, value_singleton, List.length_singleton, pow_one]

theorem value_lt (hdigits : ∀ c ∈ cs, c ∈ alphabet) : value cs < 32 ^ cs.length := by
  have hbound : ∀ d ∈ cs.reverse.map alphabet.idxOf, d < 32 := by
    intro d hd
    obtain ⟨c, hc, rfl⟩ := List.mem_map.1 hd
    exact idxOf_lt (hdigits c (List.mem_reverse.1 hc))
  simpa [value] using Nat.ofDigits_lt_base_pow_length (by decide : 1 < 32) hbound

/-! ## Encoding -/

/-- The last digit is the remainder, and those before it are the digits of the quotient. -/
theorem encode_succ (width n : Nat) :
    encode (width + 1) n = encode width (n / 32 : Nat) ++ digit (n % 32 : Nat) := by
  rw [encode, Int.ofNat_tdiv, Int.ofNat_tmod]
  rfl

/-- **A numeral of its width comes out.** -/
theorem isNumeral_encode (width n : Nat) : IsNumeral width (encode width n) := by
  induction width generalizing n with
  | zero => exact ⟨rfl, nofun⟩
  | succ width ih =>
    obtain ⟨c, hc, -, hdigit⟩ := digit_natCast (Nat.mod_lt n (by decide : 0 < 32))
    obtain ⟨hlength, hdigits⟩ := ih (n / 32)
    rw [encode_succ, hdigit]
    refine ⟨by rw [List.length_append, hlength, List.length_singleton], fun d hd => ?_⟩
    rcases List.mem_append.1 hd with hd | hd
    · exact hdigits d hd
    · rwa [List.mem_singleton.1 hd]

/-- **The value of a numeral is its number,** less what the width cannot hold. -/
theorem value_encode (width n : Nat) : value (encode width n) = n % 32 ^ width := by
  induction width generalizing n with
  | zero => rw [encode, pow_zero, Nat.mod_one]; rfl
  | succ width ih =>
    obtain ⟨c, -, hindex, hdigit⟩ := digit_natCast (Nat.mod_lt n (by decide : 0 < 32))
    rw [encode_succ, hdigit, value_concat, ih, hindex, pow_succ', Nat.mod_mul]

/-- **A numeral is the numeral of its value.** -/
theorem encode_value (h : IsNumeral width cs) : encode width (value cs) = cs := by
  induction cs using List.reverseRecOn generalizing width with
  | nil =>
    obtain rfl := h.length
    rfl
  | append_singleton cs c ih =>
    obtain ⟨hlength, hdigits⟩ := h
    have hc := hdigits c (by simp)
    have hindex := idxOf_lt hc
    have hquotient : value (cs ++ [c]) / 32 = value cs := by rw [value_concat]; omega
    have hremainder : value (cs ++ [c]) % 32 = alphabet.idxOf c := by rw [value_concat]; omega
    rw [List.length_append, List.length_singleton] at hlength
    subst hlength
    rw [encode_succ, hquotient, hremainder, digit_idxOf hc,
      ih ⟨rfl, fun d hd => hdigits d (by simp [hd])⟩]

/-! ## Order -/

/-- Where two numerals part, the greater number has the greater digit: what is behind is worth
less than one of it. -/
theorem idxOf_lt_of_value_lt {d : Char} (hlength : cs.length = ds.length) (hne : c ≠ d)
    (hcs : ∀ e ∈ c :: cs, e ∈ alphabet) (hds : ∀ e ∈ d :: ds, e ∈ alphabet)
    (h : value (c :: cs) < value (d :: ds)) : alphabet.idxOf c < alphabet.idxOf d := by
  have hrest := value_lt fun e he => hds e (List.mem_cons_of_mem d he)
  have hindex : alphabet.idxOf c ≠ alphabet.idxOf d := fun heq =>
    hne ((List.idxOf_inj (hcs c List.mem_cons_self)).1 heq)
  rw [value_cons, value_cons, hlength] at h
  by_contra hle
  have hsucc : alphabet.idxOf d + 1 ≤ alphabet.idxOf c := by omega
  have hplace := Nat.mul_le_mul_left (32 ^ ds.length) hsucc
  rw [Nat.mul_succ] at hplace
  omega

/-- **Numerals of one width are in the order of their numbers.** -/
theorem comesBefore_of_value_lt (hlength : cs.length = ds.length)
    (hcs : ∀ c ∈ cs, c ∈ alphabet) (hds : ∀ d ∈ ds, d ∈ alphabet) (h : value cs < value ds) :
    Text.comesBefore cs ds = true := by
  induction cs generalizing ds with
  | nil =>
    obtain rfl := List.length_eq_zero_iff.1 hlength.symm
    exact absurd h (Nat.lt_irrefl _)
  | cons c cs ih =>
    cases ds with
    | nil => cases hlength
    | cons d ds =>
      have hrest := Nat.succ.inj hlength
      rw [Text.comesBefore]
      split
      · rename_i heq
        subst heq
        refine ih hrest (fun e he => hcs e (List.mem_cons_of_mem c he))
          (fun e he => hds e (List.mem_cons_of_mem c he)) ?_
        rw [value_cons, value_cons, hrest] at h
        omega
      · rename_i hne
        have hc := hcs c List.mem_cons_self
        have hd := hds d List.mem_cons_self
        have hlt := lt_of_idxOf_lt hc hd (idxOf_lt_of_value_lt hrest hne hcs hds h)
        rw [charUnits_of_mem hc, charUnits_of_mem hd, decide_eq_true_iff,
          List.cons_lt_cons_iff]
        exact Or.inl hlt

/-- As names, too. -/
theorem IsNumeral.precedes (hcs : IsNumeral width cs) (hds : IsNumeral width ds)
    (h : value cs < value ds) : Text.Precedes (String.ofList cs) (String.ofList ds) := by
  have hbefore := comesBefore_of_value_lt (hcs.length.trans hds.length.symm) hcs.digits hds.digits h
  rw [Text.comesBefore_iff] at hbefore
  simpa [Text.Precedes, Text.units] using hbefore

theorem precedes_encode {m n : Nat} (hlt : m < n) (hn : n < 32 ^ width) :
    Text.Precedes (String.ofList (encode width m)) (String.ofList (encode width n)) := by
  refine (isNumeral_encode width m).precedes (isNumeral_encode width n) ?_
  rwa [value_encode, value_encode, Nat.mod_eq_of_lt (hlt.trans hn), Nat.mod_eq_of_lt hn]

/-- **The numerals of a width are those of the numbers below its power of 32,** each of one. -/
theorem bijOn_encode (width : Nat) :
    Set.BijOn (encode width) {v | 0 ≤ v ∧ v < 32 ^ width} {cs | IsNumeral width cs} := by
  have hinverse : Set.InvOn (fun cs => (value cs : Int)) (encode width)
      {v | 0 ≤ v ∧ v < 32 ^ width} {cs | IsNumeral width cs} := by
    refine ⟨?_, fun cs hcs => encode_value hcs⟩
    rintro v ⟨hv, hlt⟩
    lift v to Nat using hv
    have hfits : v < 32 ^ width := by exact_mod_cast hlt
    dsimp only
    rw [value_encode, Nat.mod_eq_of_lt hfits]
  refine hinverse.bijOn ?_ ?_
  · rintro v ⟨hv, -⟩
    lift v to Nat using hv
    exact isNumeral_encode width v
  · intro cs hcs
    obtain rfl := hcs.length
    have hfits : (value cs : Int) < 32 ^ cs.length := by exact_mod_cast value_lt hcs.digits
    exact ⟨Int.natCast_nonneg _, hfits⟩

end ChangeGate.Base32
