import ChangeGate.Number.Decimal
/-!
# JSON values

The values of a JSON text. The members of an object stand in the order in which the object
writes them: members whose name is an array index first, in numeric order, and the others in the
order in which they were added. Giving a member a new value does not move it.
-/

namespace ChangeGate

inductive Json where
  | null
  | bool (value : Bool)
  | num (value : Number)
  | str (value : String)
  | arr (items : List Json)
  | obj (members : List (String × Json))
deriving Inhabited

namespace Json

/-- The array index that a name is: a numeral without needless zeros, below `2^32 - 1`. -/
def arrayIndex? (name : String) : Option Nat :=
  let digits := name.toList
  if digits ≠ [] ∧ digits.all Char.isDigit ∧ (digits.head? = some '0' → digits = ['0']) then
    let index := Nat.ofDigitChars 10 digits 0
    if index < 4294967295 then some index else none
  else none

/-- Whether a new member `name` stands before a member `other` that is already there. -/
def standsBefore (name other : String) : Bool :=
  match arrayIndex? name, arrayIndex? other with
  | some i, some j => i < j
  | some _, none => true
  | none, _ => false

/-- **One member added or changed.** -/
def setMember (name : String) (value : Json) : List (String × Json) → List (String × Json)
  | [] => [(name, value)]
  | (k, v) :: rest =>
    if k = name then (name, value) :: rest
    else if standsBefore name k then (name, value) :: (k, v) :: rest
    else (k, v) :: setMember name value rest

/-- **The object of a list of members,** of which a later one of the same name wins. -/
def object (members : List (String × Json)) : Json :=
  .obj (members.foldl (fun acc m => setMember m.1 m.2 acc) [])

/-- The value of a member. -/
def lookup? (name : String) (members : List (String × Json)) : Option Json :=
  members.findSome? fun m => if m.1 = name then some m.2 else none

/-- Members without those that are absent. -/
def present (members : List (String × Option Json)) : List (String × Json) :=
  members.filterMap fun m => m.2.map (m.1, ·)

end Json

end ChangeGate
