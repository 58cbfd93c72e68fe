/-!
# Text as bytes

`encode` writes a text in UTF-8. `decode` reads any bytes: well-formed sequences as their
characters and every ill-formed part as one `U+FFFD`. An ill-formed part is the longest start of
a well-formed sequence that the bytes at that place make, or one byte where they make none.
-/

namespace ChangeGate.Text.Utf8

def encode (s : String) : List UInt8 :=
  s.toList.flatMap String.utf8EncodeChar

/-- The character for what is ill-formed. -/
def replacement : Char := '\uFFFD'

/-- **What may follow a first byte:** how many bytes, the range of the first of them, and the
bits of the first byte itself. The later ones range over `80` to `BF`. -/
structure Lead where
  following : Nat
  least : UInt8
  greatest : UInt8
  bits : Nat

/-- **A first byte,** if `b` is one. The ranges leave out the overlong forms, the surrogates and
all beyond `U+10FFFF`. -/
def lead? (b : UInt8) : Option Lead :=
  if b < 0x80 then some ⟨0, 0x80, 0xBF, b.toNat⟩
  else if b < 0xC2 then none
  else if b < 0xE0 then some ⟨1, 0x80, 0xBF, b.toNat - 0xC0⟩
  else if b = 0xE0 then some ⟨2, 0xA0, 0xBF, 0⟩
  else if b = 0xED then some ⟨2, 0x80, 0x9F, 0xD⟩
  else if b < 0xF0 then some ⟨2, 0x80, 0xBF, b.toNat - 0xE0⟩
  else if b = 0xF0 then some ⟨3, 0x90, 0xBF, 0⟩
  else if b < 0xF4 then some ⟨3, 0x80, 0xBF, b.toNat - 0xF0⟩
  else if b = 0xF4 then some ⟨3, 0x80, 0x8F, 4⟩
  else none

/-- **The reader between two bytes:** the bytes that a sequence still needs, the range of the
next one and the bits so far. With nothing needed it stands between characters. -/
structure Pending where
  needed : Nat
  least : UInt8
  greatest : UInt8
  bits : Nat

/-- Between characters. -/
def Pending.none : Pending := ⟨0, 0x80, 0xBF, 0⟩

/-- Reads a byte as the first of a character. -/
def start (b : UInt8) : List Char × Pending :=
  match lead? b with
  | .none => ([replacement], .none)
  | some l =>
    if l.following = 0 then ([Char.ofNat l.bits], .none)
    else ([], ⟨l.following, l.least, l.greatest, l.bits⟩)

/-- **One byte.** A byte outside the range that a sequence needs ends it as ill-formed, and
is then read as a first byte itself. -/
def step (p : Pending) (b : UInt8) : List Char × Pending :=
  if p.needed = 0 then start b
  else if p.least ≤ b ∧ b ≤ p.greatest then
    let bits := p.bits * 64 + (b.toNat - 0x80)
    if p.needed = 1 then ([Char.ofNat bits], .none)
    else ([], ⟨p.needed - 1, 0x80, 0xBF, bits⟩)
  else
    let (chars, next) := start b
    (replacement :: chars, next)

/-- All that is left; a sequence cut short by the end is ill-formed. -/
def finish (p : Pending) : List UInt8 → List Char
  | [] => if p.needed = 0 then [] else [replacement]
  | b :: rest =>
    let (chars, next) := step p b
    chars ++ finish next rest

def decode (bytes : List UInt8) : String :=
  String.ofList (finish .none bytes)

end ChangeGate.Text.Utf8
