import ChangeGate.Json.Basic
import ChangeGate.Json.Escape
/-!
# JSON text

One printer with two styles: `compact`, without a blank, and `indented`, with one item or member
a line and two blanks for every level. A string is written with as few escapes as JSON allows; a
number that is not finite has no JSON text and is written as `null`.
-/

namespace ChangeGate.Json

/-- **The white space of a style:** the break before an item at a level, and what stands between
a name and its value. -/
structure Style where
  lineBreak : Nat → List Char
  colon : List Char

/-- No white space at all. -/
def Style.compact : Style where
  lineBreak _ := []
  colon := [':']

/-- One item a line, two blanks a level. -/
def Style.indented : Style where
  lineBreak level := '\n' :: List.replicate (2 * level) ' '
  colon := [':', ' ']

/-- A string in quotes, in front of what follows. -/
def quote (s : String) (rest : List Char) : List Char :=
  '"' :: (s.toList.flatMap Escape.write ++ '"' :: rest)

/-- A number, or `null` for one that is not finite. -/
def numberText (x : Number) : List Char :=
  match x with
  | .finite _ => x.text.toList
  | _ => "null".toList

mutual

/-- **The text of a value that stands at a level,** in front of what follows. -/
def write (style : Style) (level : Nat) (v : Json) (rest : List Char) : List Char :=
  match v with
  | .null => "null".toList ++ rest
  | .bool true => "true".toList ++ rest
  | .bool false => "false".toList ++ rest
  | .num x => numberText x ++ rest
  | .str s => quote s rest
  | .arr [] => '[' :: ']' :: rest
  | .arr (item :: items) =>
    '[' :: (style.lineBreak (level + 1) ++ write style (level + 1) item
      (writeItems style (level + 1) items (style.lineBreak level ++ ']' :: rest)))
  | .obj [] => '\x7b' :: '\x7d' :: rest
  | .obj ((name, value) :: members) =>
    '\x7b' :: (style.lineBreak (level + 1) ++ quote name (style.colon ++
      write style (level + 1) value
        (writeMembers style (level + 1) members (style.lineBreak level ++ '\x7d' :: rest))))

/-- The items after the first one, each after a comma. -/
def writeItems (style : Style) (level : Nat) (items : List Json) (rest : List Char) : List Char :=
  match items with
  | [] => rest
  | item :: items =>
    ',' :: (style.lineBreak level ++ write style level item (writeItems style level items rest))

/-- The members after the first one, each after a comma. -/
def writeMembers (style : Style) (level : Nat) (members : List (String × Json))
    (rest : List Char) : List Char :=
  match members with
  | [] => rest
  | (name, value) :: members =>
    ',' :: (style.lineBreak level ++ quote name (style.colon ++ write style level value
      (writeMembers style level members rest)))

end

/-- A value on one line, without blanks. -/
def compact (v : Json) : String :=
  String.ofList (write .compact 0 v [])

/-- A value with one item or member a line. -/
def indented (v : Json) : String :=
  String.ofList (write .indented 0 v [])

end ChangeGate.Json
