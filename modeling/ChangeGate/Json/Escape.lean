/-!
# Escapes

How a character is written inside the quotes of a JSON string if it cannot stand there as it is.
Some characters have an escape of one letter; any code unit has one of four hexadecimal digits.
What is written with a letter is read back from it (`character?_of_letter?`), and so is a digit
(`digitValue?_digit`).
-/

namespace ChangeGate.Json.Escape

/-- **The escapes of one letter:** the characters that are written so, with their letters. -/
def letters : List (Char × Char) :=
  [('"', '"'), ('\\', '\\'), ('\x08', 'b'), ('\x0c', 'f'), ('\n', 'n'), ('\r', 'r'), ('\t', 't')]

/-- The letter that a character is written with. -/
def letter? (c : Char) : Option Char :=
  letters.lookup c

/-- The character that a letter stands for. A solidus may be escaped too, though none is
written so. -/
def character? (letter : Char) : Option Char :=
  if letter = '/' then some '/'
  else (letters.find? fun e => e.2 = letter).map (·.1)

/-- **What is written with a letter is read back from it.** -/
theorem character?_of_letter? {c letter : Char} (h : letter? c = some letter) :
    character? letter = some c := by
  obtain ⟨before, after, heq, -⟩ := List.lookup_eq_some_iff.1 h
  have hmem : (c, letter) ∈ letters := by rw [heq]; simp
  have hall : ∀ e ∈ letters, character? e.2 = some e.1 := by decide
  exact hall _ hmem

/-- A hexadecimal digit, in lower case. -/
def digit (n : Nat) : Char :=
  if n < 10 then Char.ofNat (48 + n) else Char.ofNat (87 + n)

/-- The value of a hexadecimal digit, in either case. -/
def digitValue? (c : Char) : Option Nat :=
  if '0' ≤ c ∧ c ≤ '9' then some (c.toNat - 48)
  else if 'a' ≤ c ∧ c ≤ 'f' then some (c.toNat - 87)
  else if 'A' ≤ c ∧ c ≤ 'F' then some (c.toNat - 55)
  else none

/-- A digit has its value. -/
theorem digitValue?_digit {n : Nat} (h : n < 16) : digitValue? (digit n) = some n := by
  have hall : ∀ n : Fin 16, digitValue? (digit n) = some n.val := by decide
  exact hall ⟨n, h⟩

/-- The code unit of four hexadecimal digits. -/
def unit? (a b c d : Char) : Option Nat := do
  return (((← digitValue? a) * 16 + (← digitValue? b)) * 16 + (← digitValue? c)) * 16 +
    (← digitValue? d)

/-- **A character inside quotes.** The quote, the backslash and what is below the blank are
escaped, with a letter where there is one. -/
def write (c : Char) : List Char :=
  match letter? c with
  | some letter => ['\\', letter]
  | none =>
    if c.toNat < 32 then ['\\', 'u', '0', '0', digit (c.toNat / 16), digit (c.toNat % 16)]
    else [c]

end ChangeGate.Json.Escape
