import ChangeGate.Json.Basic
import ChangeGate.Json.Escape
import ChangeGate.Json.Malformed
import ChangeGate.Text.FromUnits
/-!
# Reading JSON

`Json.parse` reads a text that is one JSON value with white space around it, and says what is
wrong with any other: white space is the blank, the tab, the line feed and the carriage return,
and there is neither a comment nor a comma too many. A string is read into code units, so that two
escapes can make one character. A number is rounded to the nearest one of the format.

A reader takes the characters from its place on and gives what it read with the characters that
follow, or the first flaw.
-/

namespace ChangeGate.Json

/-- What a reader gives. -/
abbrev Reading (α : Type) := Except Malformed (α × List Char)

/-- White space. -/
def isBlank (c : Char) : Bool :=
  c = ' ' || c = '\t' || c = '\n' || c = '\r'

def skipBlanks (cs : List Char) : List Char :=
  cs.dropWhile isBlank

/-! ## Strings -/

/-- The flaw of an escape that has too few hexadecimal digits, from behind its letter. -/
def badUnicodeEscape (cs : List Char) : Malformed where
  flaw := .badUnicodeEscape
  rest := cs.dropWhile fun c => (Escape.digitValue? c).isSome

/-- **The code units of a string,** from behind its opening quote. A character below the blank
has to be escaped. -/
def readUnits : List Char → Reading (List Nat)
  | [] => .error ⟨.openString, []⟩
  | c :: rest =>
    if c = '"' then .ok ([], rest)
    else if c = '\\' then
      match rest with
      | 'u' :: h₁ :: h₂ :: h₃ :: h₄ :: after =>
        match Escape.unit? h₁ h₂ h₃ h₄ with
        | none => .error (badUnicodeEscape (h₁ :: h₂ :: h₃ :: h₄ :: after))
        | some unit => (readUnits after).map fun r => (unit :: r.1, r.2)
      | letter :: after =>
        match Escape.character? letter with
        | some e => (readUnits after).map fun r => (Text.charUnits e ++ r.1, r.2)
        | none =>
          .error (if letter = 'u' then badUnicodeEscape after else ⟨.badEscape, letter :: after⟩)
      | [] => .error ⟨.badEscape, []⟩
    else if c.toNat < 32 then .error ⟨.controlCharacter, c :: rest⟩
    else (readUnits rest).map fun r => (Text.charUnits c ++ r.1, r.2)

/-- A string, from behind its opening quote. -/
def readString (cs : List Char) : Reading String :=
  (readUnits cs).map fun r => (String.ofList (Text.ofUnits r.1), r.2)

/-! ## Numbers -/

/-- A run of digits, perhaps empty. -/
def digits (cs : List Char) : List Char × List Char :=
  (cs.takeWhile Char.isDigit, cs.dropWhile Char.isDigit)

/-- The digits behind a point; none without a point. -/
def readFraction : List Char → Reading (List Char)
  | [] => .ok ([], [])
  | c :: rest =>
    if c = '.' then
      let (ds, after) := digits rest
      if ds = [] then .error ⟨.noDigitInFraction, rest⟩ else .ok (ds, after)
    else .ok ([], c :: rest)

/-- The digits of an exponent with their sign. -/
def readSignedDigits (negative : Bool) (cs : List Char) : Reading Int :=
  let (ds, after) := digits cs
  if ds = [] then .error ⟨.noDigitInExponent, cs⟩
  else
    let size : Int := Nat.ofDigitChars 10 ds 0
    .ok (if negative then -size else size, after)

/-- The digits of an exponent, perhaps behind a sign. -/
def readExponentDigits : List Char → Reading Int
  | [] => .error ⟨.noDigitInExponent, []⟩
  | c :: rest =>
    if c = '+' then readSignedDigits false rest
    else if c = '-' then readSignedDigits true rest
    else readSignedDigits false (c :: rest)

/-- The exponent behind its letter; zero without one. -/
def readExponent : List Char → Reading Int
  | [] => .ok (0, [])
  | c :: rest => if c = 'e' ∨ c = 'E' then readExponentDigits rest else .ok (0, c :: rest)

/-- A number without its sign. -/
def readUnsigned (negative : Bool) (cs : List Char) : Reading Decimal :=
  let (whole, rest) := digits cs
  if whole = [] then .error ⟨if negative then .noDigitAfterMinus else .unexpected, cs⟩
  -- Only a point or an exponent goes on from a leading zero.
  else if whole.head? = some '0' ∧ whole ≠ ['0'] then .error ⟨.unexpected, cs.tail⟩
  else
    match readFraction rest with
    | .error e => .error e
    | .ok (places, rest) =>
      match readExponent rest with
      | .error e => .error e
      | .ok (exponent, rest) =>
        .ok ({ negative, digits := Nat.ofDigitChars 10 (whole ++ places) 0,
               exponent := exponent - places.length }, rest)

/-- **A number:** its decimal, before rounding. -/
def readDecimal : List Char → Reading Decimal
  | [] => .error ⟨.unexpected, []⟩
  | c :: rest => if c = '-' then readUnsigned true rest else readUnsigned false (c :: rest)

/-! ## Values -/

/-- Takes one character, behind white space, if it is there. -/
def eat? (c : Char) (cs : List Char) : Option (List Char) :=
  match skipBlanks cs with
  | [] => none
  | d :: rest => if d = c then some rest else none

/-- Takes one character, behind white space, that has to be there. -/
def expect (c : Char) (flaw : Flaw) (cs : List Char) : Except Malformed (List Char) :=
  match eat? c cs with
  | some rest => .ok rest
  | none => .error ⟨flaw, skipBlanks cs⟩

/-- A value that is one word, of which the first letter is read already. -/
def readWord (v : Json) : List Char → List Char → Reading Json
  | [], cs => .ok (v, cs)
  | _ :: _, [] => .error ⟨.unexpected, []⟩
  | letter :: letters, c :: cs =>
    if c = letter then readWord v letters cs else .error ⟨.unexpected, c :: cs⟩

mutual

/-- A value, behind white space. -/
def readValue : Nat → List Char → Reading Json
  | 0, cs => .error ⟨.unexpected, cs⟩
  | fuel + 1, cs =>
    match skipBlanks cs with
    | [] => .error ⟨.unexpected, []⟩
    | c :: rest =>
      if c = '"' then (readString rest).map fun r => (.str r.1, r.2)
      else if c = '[' then
        match eat? ']' rest with
        | some rest => .ok (.arr [], rest)
        | none => (readItems fuel rest).map fun r => (.arr r.1, r.2)
      else if c = '\x7b' then
        match eat? '\x7d' rest with
        | some rest => .ok (.obj [], rest)
        | none => (readMembers fuel .noNameOrBrace rest).map fun r => (object r.1, r.2)
      else if c = 'n' then readWord .null ['u', 'l', 'l'] rest
      else if c = 't' then readWord (.bool true) ['r', 'u', 'e'] rest
      else if c = 'f' then readWord (.bool false) ['a', 'l', 's', 'e'] rest
      else (readDecimal (c :: rest)).map fun r => (.num r.1.toNumber, r.2)

/-- One item or more, up to the closing bracket. -/
def readItems : Nat → List Char → Reading (List Json)
  | 0, cs => .error ⟨.unexpected, cs⟩
  | fuel + 1, cs =>
    match readValue fuel cs with
    | .error e => .error e
    | .ok (item, rest) =>
      match eat? ',' rest with
      | some rest => (readItems fuel rest).map fun r => (item :: r.1, r.2)
      | none => (expect ']' .noCommaOrBracket rest).map fun rest => ([item], rest)

/-- One member or more, up to the closing brace. The flaw given is that of a missing name. -/
def readMembers : Nat → Flaw → List Char → Reading (List (String × Json))
  | 0, _, cs => .error ⟨.unexpected, cs⟩
  | fuel + 1, missing, cs =>
    match readMember fuel missing cs with
    | .error e => .error e
    | .ok (m, rest) =>
      match eat? ',' rest with
      | some rest => (readMembers fuel .noName rest).map fun r => (m :: r.1, r.2)
      | none => (expect '\x7d' .noCommaOrBrace rest).map fun rest => ([m], rest)

/-- A name, a colon and a value. -/
def readMember : Nat → Flaw → List Char → Reading (String × Json)
  | 0, _, cs => .error ⟨.unexpected, cs⟩
  | fuel + 1, missing, cs =>
    match expect '"' missing cs with
    | .error e => .error e
    | .ok rest =>
      match readString rest with
      | .error e => .error e
      | .ok (name, rest) =>
        match expect ':' .noColon rest with
        | .error e => .error e
        | .ok rest => (readValue fuel rest).map fun r => ((name, r.1), r.2)

end

/-- **The value that a text is,** or what keeps it from being JSON. From a value to one nested in
it there are at most three calls and at least one character, so three calls for each character are
enough. -/
def parse (text : String) : Except Malformed Json :=
  match readValue (3 * text.toList.length + 3) text.toList with
  | .error e => .error e
  | .ok (v, rest) =>
    if skipBlanks rest = [] then .ok v else .error ⟨.trailing, skipBlanks rest⟩

/-- The value that a text is, if it is JSON. -/
def parse? (text : String) : Option Json :=
  (parse text).toOption

end ChangeGate.Json
