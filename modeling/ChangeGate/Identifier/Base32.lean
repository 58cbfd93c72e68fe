/-!
# Base 32

Integers as digits of base 32, most significant digit first, in an alphabet that leaves out the
letters that are easily misread. A number too large for the digits asked for loses its leading
ones.
-/

namespace ChangeGate.Base32

/-- The digits in order of their value, which is also the order of their code points. -/
def alphabet : List Char :=
  "0123456789ABCDEFGHJKMNPQRSTVWXYZ".toList

/-- The character of a digit; a negative one has none. -/
def digit (d : Int) : List Char :=
  if d < 0 then [] else (alphabet[d.toNat]?).toList

/-- **The last `length` digits of an integer.** Division truncates, so the digits of a negative
integer are zero or negative. -/
def encode : Nat → Int → List Char
  | 0, _ => []
  | length + 1, n => encode length (n.tdiv 32) ++ digit (n.tmod 32)

def isDigit (c : Char) : Bool :=
  alphabet.contains c

end ChangeGate.Base32
