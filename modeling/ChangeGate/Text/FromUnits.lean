import ChangeGate.Text.Units
/-!
# Text from code units

`ofUnits` joins the surrogate pairs of a sequence of UTF-16 code units; a surrogate without its
partner, which is no character, is read as `U+FFFD`.

Main statement: `ofUnits_flatMap_charUnits`, the units of a text give that text.
-/

namespace ChangeGate.Text

def isHighSurrogate (u : Nat) : Bool := 0xD800 ≤ u && u < 0xDC00

def isLowSurrogate (u : Nat) : Bool := 0xDC00 ≤ u && u < 0xE000

/-- A unit that stands alone. -/
def ofUnit (u : Nat) : Char :=
  if isHighSurrogate u || isLowSurrogate u then '\uFFFD' else Char.ofNat u

/-- The character of a surrogate pair. -/
def ofPair (high low : Nat) : Char :=
  Char.ofNat (0x10000 + (high - 0xD800) * 0x400 + (low - 0xDC00))

def ofUnits : List Nat → List Char
  | [] => []
  | [u] => [ofUnit u]
  | u :: v :: rest =>
    if isHighSurrogate u && isLowSurrogate v then ofPair u v :: ofUnits rest
    else ofUnit u :: ofUnits (v :: rest)

theorem ofUnit_toNat (c : Char) (h : c.toNat < 0x10000) : ofUnit c.toNat = c := by
  have := toNat_lt_or_gt c
  have hsur : (isHighSurrogate c.toNat || isLowSurrogate c.toNat) = false := by
    simp [isHighSurrogate, isLowSurrogate]; omega
  rw [ofUnit, hsur]
  exact Char.ofNat_toNat c

theorem ofUnits_cons_of_not_high {u : Nat} (h : isHighSurrogate u = false) (rest : List Nat) :
    ofUnits (u :: rest) = ofUnit u :: ofUnits rest := by
  cases rest with
  | nil => rfl
  | cons v rest => simp [ofUnits, h]

/-- One character's units, then anything. -/
theorem ofUnits_charUnits_append (c : Char) (rest : List Nat) :
    ofUnits (charUnits c ++ rest) = c :: ofUnits rest := by
  have hsur := toNat_lt_or_gt c
  have hmax := toNat_lt c
  by_cases h : c.toNat < 0x10000
  · have hhigh : isHighSurrogate c.toNat = false := by simp [isHighSurrogate]; omega
    rw [charUnits, if_pos h, List.singleton_append, ofUnits_cons_of_not_high hhigh,
      ofUnit_toNat c h]
  · have hhigh : isHighSurrogate (0xD800 + (c.toNat - 0x10000) / 0x400) = true := by
      simp [isHighSurrogate]; omega
    have hlow : isLowSurrogate (0xDC00 + (c.toNat - 0x10000) % 0x400) = true := by
      simp [isLowSurrogate]; omega
    have hpair : 0x10000 + (0xD800 + (c.toNat - 0x10000) / 0x400 - 0xD800) * 0x400 +
        (0xDC00 + (c.toNat - 0x10000) % 0x400 - 0xDC00) = c.toNat := by omega
    rw [charUnits, if_neg h]
    simp only [List.cons_append, List.nil_append, ofUnits, hhigh, hlow, Bool.and_self, if_true]
    rw [ofPair, hpair, Char.ofNat_toNat]

/-- **The units of a text give that text.** -/
theorem ofUnits_flatMap_charUnits (s : List Char) : ofUnits (s.flatMap charUnits) = s := by
  induction s with
  | nil => rfl
  | cons c s ih => rw [List.flatMap_cons, ofUnits_charUnits_append, ih]

end ChangeGate.Text
