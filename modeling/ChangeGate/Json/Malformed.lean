/-!
# What is wrong with a JSON text

A text that is not JSON is so at its first flaw. Whoever reads state takes a text with a flaw for a
missing file, whatever the flaw is.
-/

namespace ChangeGate.Json

/-- **The ways in which a text is not JSON.** A character is unexpected if no value starts with it
or a word does not go on with it, and so is the end of the text. -/
inductive Flaw where
  | unexpected
  | noNameOrBrace
  | noName
  | noColon
  | noCommaOrBrace
  | noCommaOrBracket
  | openString
  | controlCharacter
  | badEscape
  | badUnicodeEscape
  | noDigitAfterMinus
  | noDigitInFraction
  | noDigitInExponent
  | trailing
deriving DecidableEq

/-- **The first flaw of a text,** and the characters from its place on. -/
structure Malformed where
  flaw : Flaw
  rest : List Char
deriving DecidableEq

end ChangeGate.Json
