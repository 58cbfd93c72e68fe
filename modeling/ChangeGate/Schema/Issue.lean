import ChangeGate.Json.Printer
/-!
# Issues

What a check finds wrong in a JSON value: a problem, and the path to the value that has it. A
value may be missing altogether, which is a type of its own here.
-/

namespace ChangeGate

/-- The type of a JSON value, or of a missing one. -/
inductive JsonType where
  | object
  | array
  | string
  | number
  | boolean
  | null
  | undefined
deriving DecidableEq

def JsonType.name : JsonType → String
  | object => "object"
  | array => "array"
  | string => "string"
  | number => "number"
  | boolean => "boolean"
  | null => "null"
  | undefined => "undefined"

def JsonType.of : Option Json → JsonType
  | none => .undefined
  | some .null => .null
  | some (.bool _) => .boolean
  | some (.num _) => .number
  | some (.str _) => .string
  | some (.arr _) => .array
  | some (.obj _) => .object

/-- One step into a value. -/
inductive PathStep where
  | member (name : String)
  | index (i : Nat)
deriving DecidableEq

/-- **What can be wrong with a value.** -/
inductive Problem where
  | wrongType (expected received : JsonType)
  | wrongVersion (received : Option Json)
  | notInteger
  | belowSafeRange
  | aboveSafeRange
  | emptyName
  | invertedBounds

/-- A problem and where it is. -/
structure Issue where
  path : List PathStep
  problem : Problem

/-- The number of a count or an index. -/
def Json.ofNat (n : Nat) : Json :=
  .num (.ofQuotient false (n * stepsPerOne) 1)

def Json.ofSafeInt (n : SafeInt) : Json :=
  .num (.ofSafeInt n)

/-- The ends of the safe range. -/
def SafeInt.least : SafeInt := ⟨-9007199254740991, by decide, by decide⟩

def SafeInt.greatest : SafeInt := ⟨9007199254740991, by decide, by decide⟩

namespace Issue

def pathJson (path : List PathStep) : Json :=
  .arr (path.map fun step =>
    match step with
    | .member name => .str name
    | .index i => .ofNat i)

/-- The members of an issue about a limit. -/
def limitMembers (code limit : String) (value : Json) (type message : String) (path : Json) :
    List (String × Json) :=
  [("code", .str code), (limit, value), ("type", .str type), ("inclusive", .bool true),
    ("exact", .bool false), ("message", .str message), ("path", path)]

/-- **The members of an issue, in the order in which they are written.** -/
def members (i : Issue) : List (String × Json) :=
  let path := pathJson i.path
  match i.problem with
  | .wrongType expected received =>
    [("code", .str "invalid_type"), ("expected", .str expected.name),
      ("received", .str received.name), ("path", path),
      ("message", .str (if received = .undefined then "Required"
        else "Expected " ++ expected.name ++ ", received " ++ received.name))]
  | .wrongVersion received =>
    Json.present [("received", received), ("code", some (.str "invalid_literal")),
      ("expected", some (.ofNat 1)), ("path", some path),
      ("message", some (.str "Invalid literal value, expected 1"))]
  | .notInteger =>
    [("code", .str "invalid_type"), ("expected", .str "integer"), ("received", .str "float"),
      ("message", .str "Expected integer, received float"), ("path", path)]
  | .belowSafeRange =>
    limitMembers "too_small" "minimum" (.ofSafeInt .least) "number"
      ("Number must be greater than or equal to " ++ SafeInt.least.text) path
  | .aboveSafeRange =>
    limitMembers "too_big" "maximum" (.ofSafeInt .greatest) "number"
      ("Number must be less than or equal to " ++ SafeInt.greatest.text) path
  | .emptyName =>
    limitMembers "too_small" "minimum" (.ofNat 1) "string"
      "String must contain at least 1 character(s)" path
  | .invertedBounds =>
    [("code", .str "custom"),
      ("message", .str "minVersionCode must not be greater than maxVersionCode"), ("path", path)]

/-- A list of issues as one text. -/
def report (issues : List Issue) : String :=
  (Json.arr (issues.map fun i => .obj i.members)).indented

end Issue

end ChangeGate
