import ChangeGate.Identifier.Base32
import ChangeGate.Number.Basic
/-!
# Sortable identifiers

The id of a logged event has two parts: the time in milliseconds, in ten digits of base 32, and
eighty random bits, in sixteen. Ids of different milliseconds sort as their times do, and ids of
one millisecond differ as long as their random bits do.
-/

namespace ChangeGate.Ulid

def timeLength : Nat := 10

def randomLength : Nat := 16

/-- How many random bytes an id takes. -/
def randomBytes : Nat := 10

/-- **The random bits of some bytes,** those of the first byte in front. -/
def randomBits (bytes : List UInt8) : Nat :=
  bytes.foldl (fun bits byte => bits <<< 8 ||| byte.toNat) 0

/-- **The id of a time and random bits.** -/
def encode (time : Int) (random : Nat) : String :=
  String.ofList (Base32.encode timeLength time ++ Base32.encode randomLength random)

/-- The id of a time given as a number. There is none for a time that is no integer. -/
def ofNumber? (time : Number) (random : Nat) : Option String :=
  time.toInt?.map fun t => encode t random

end ChangeGate.Ulid
