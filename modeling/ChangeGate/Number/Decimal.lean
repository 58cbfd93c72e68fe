import ChangeGate.Number.Basic
/-!
# Decimals

A decimal is a whole number of digits times a power of ten. `Decimal.toNumber` is the nearest
number, and `Decimal.shortest` goes back: it is the decimal with the fewest digits whose nearest
number is the given one, and among those the closest. `Number.text` writes a number with these
digits.
-/

namespace ChangeGate

/-- **A decimal:** `digits` times ten to the `exponent`, with a sign. -/
structure Decimal where
  negative : Bool
  digits : Nat
  exponent : Int
deriving DecidableEq

namespace Decimal

/-- How many decimal digits `n` has; zero has one. -/
def length (n : Nat) : Nat :=
  (Nat.toDigits 10 n).length

/-- **The nearest number.** A decimal whose leading digit stands more than 400 places from the
point is out of reach of the format on that side, whatever its other digits; so no power of ten
is computed for it. -/
def toNumber (d : Decimal) : Number :=
  let leading := d.exponent + length d.digits
  if d.digits = 0 ∨ leading < -400 then .zero
  else if 400 < leading then (if d.negative then .negInf else .posInf)
  else
    match d.exponent with
    | .ofNat places => .ofQuotient d.negative (d.digits * Nat.pow 10 places * stepsPerOne) 1
    | .negSucc places => .ofQuotient d.negative (d.digits * stepsPerOne) (Nat.pow 10 (places + 1))

/-! ## The shortest decimal

Every finite number is a decimal: a step is `5 ^ stepExponent` with the point `stepExponent`
places to the left. Cutting the digits of that decimal after the `n`-th gives its two neighbours
on the grid of `n` digits. -/

/-- **A number in full.** -/
def exact (x : Binary64) : Decimal where
  negative := x.steps < 0
  digits := x.steps.natAbs * Nat.pow 5 stepExponent
  exponent := -stepExponent

/-- The nearer of the two neighbours `low` and `low + 1` of `digits`, counted in units of
`place`; an exact half goes to the even one. -/
def nearer (digits place low : Nat) : Nat :=
  let below := digits - low * place
  let above := (low + 1) * place - digits
  if below < above then low
  else if above < below then low + 1
  else if low % 2 = 0 then low
  else low + 1

/-- **The neighbours of `x` on the grid of `count` digits, the better first.** -/
def neighbours (x : Binary64) (count : Nat) : List Decimal :=
  let full := exact x
  let cut := length full.digits - count
  let place := Nat.pow 10 cut
  let low := full.digits / place
  let best := nearer full.digits place low
  let other := if best = low then low + 1 else low
  [best, other].map fun digits => { full with digits, exponent := full.exponent + cut }

/-- The grids that are tried: 17 digits always tell two numbers apart. -/
def digitCounts : List Nat :=
  [1, 2, 3, 4, 5, 6, 7, 8, 9, 10, 11, 12, 13, 14, 15, 16, 17]

/-- **The shortest decimal that reads back,** and of those of its length the closest. -/
def shortest (x : Binary64) : Decimal :=
  ((digitCounts.flatMap (neighbours x)).find? (fun d => d.toNumber = .finite x)).getD (exact x)

/-! ## Layout -/

/-- The significant digits as characters, without the zeros at the end. -/
def significantDigits (d : Decimal) : List Char :=
  ((Nat.toDigits 10 d.digits).reverse.dropWhile (· = '0')).reverse

/-- A decimal exponent with its sign. -/
def exponentText (e : Int) : List Char :=
  (if e < 0 then '-' else '+') :: Nat.toDigits 10 e.natAbs

/-- **The layout of digits.** `point` is the place of the decimal point, counted from before the
first digit. It is written where it stands from six zeros before the digits up to the 21st place,
and moved behind the first digit otherwise. -/
def layout (digits : List Char) (point : Int) : List Char :=
  if digits.length ≤ point ∧ point ≤ 21 then
    digits ++ List.replicate (point - digits.length).toNat '0'
  else if 0 < point ∧ point ≤ 21 then
    digits.take point.toNat ++ '.' :: digits.drop point.toNat
  else if -6 < point ∧ point ≤ 0 then
    '0' :: '.' :: List.replicate (-point).toNat '0' ++ digits
  else
    match digits with
    | [] => []
    | [first] => first :: 'e' :: exponentText (point - 1)
    | first :: rest => first :: '.' :: rest ++ 'e' :: exponentText (point - 1)

/-- The characters of a decimal. -/
def text (d : Decimal) : List Char :=
  (if d.negative then ['-'] else []) ++
    layout d.significantDigits (d.exponent + length d.digits)

end Decimal

/-- **A number as text.** A safe integer in full, any other finite number by its shortest
digits. -/
def Number.text (x : Number) : String :=
  match x with
  | .nan => "NaN"
  | .negInf => "-Infinity"
  | .posInf => "Infinity"
  | .finite value =>
    match x.toSafeInt? with
    | some n => n.text
    | none => String.ofList (Decimal.shortest value).text

end ChangeGate
