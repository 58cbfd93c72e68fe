import ChangeGate.Schema.Issue
/-!
# Checking a JSON value

A check looks at a value that may be missing, and gives the issues that it finds together with
what it read. It goes on as long as there is something to go on with: a value of the wrong type
is not read, while a number that is out of range is still a number, and what depends on it is
checked as well. A value is accepted if there is no issue at all.
-/

namespace ChangeGate

/-- **The outcome of a check:** the issues in the order of the value's parts, and what was read.
Nothing was read from a value of the wrong type. -/
structure Checked (α : Type) where
  issues : List Issue
  read : Option α

/-- A check of a value at a path. -/
def Check (α : Type) : Type := List PathStep → Option Json → Checked α

variable {α β : Type}

namespace Checked

def ok (a : α) : Checked α := ⟨[], some a⟩

def refused (issue : Issue) : Checked α := ⟨[issue], none⟩

def map (f : α → β) (c : Checked α) : Checked β :=
  ⟨c.issues, c.read.map f⟩

/-- **One more part.** Its issues come after those found so far, and are looked for even if
something before it was not read. -/
def apply (c : Checked (α → β)) (d : Checked α) : Checked β :=
  ⟨c.issues ++ d.issues,
    match c.read, d.read with
    | some f, some a => some (f a)
    | _, _ => none⟩

/-- **What is accepted:** what was read, or the issues if there are any. -/
def result (c : Checked α) : Except (List Issue) α :=
  match c.issues, c.read with
  | [], some a => .ok a
  | issues, _ => .error issues

end Checked

namespace Check

def map (f : α → β) (c : Check α) : Check β :=
  fun path v => (c path v).map f

/-- Any value at all; a missing one counts as `null`. -/
def any : Check Json :=
  fun _ v => .ok (v.getD .null)

def wrongType (expected : JsonType) (path : List PathStep) (v : Option Json) : Checked α :=
  .refused ⟨path, .wrongType expected (.of v)⟩

def number : Check Number := fun path v =>
  match v with
  | some (.num x) => .ok x
  | _ => wrongType .number path v

def boolean : Check Bool := fun path v =>
  match v with
  | some (.bool b) => .ok b
  | _ => wrongType .boolean path v

/-- A string with at least one character. -/
def name : Check String := fun path v =>
  match v with
  | some (.str s) => ⟨if s.isEmpty then [⟨path, .emptyName⟩] else [], some s⟩
  | _ => wrongType .string path v

/-- The issue of a number that is no integer. -/
def integerIssues (path : List PathStep) (x : Number) : List Issue :=
  if x.toInt?.isSome then [] else [⟨path, .notInteger⟩]

/-- The issues of a number outside the safe range. -/
def rangeIssues (path : List PathStep) (x : Number) : List Issue :=
  if x.lt (.ofSafeInt .least) then [⟨path, .belowSafeRange⟩]
  else if (Number.ofSafeInt .greatest).lt x then [⟨path, .aboveSafeRange⟩]
  else []

/-- An integer of any size. -/
def integer : Check Number := fun path v =>
  match v with
  | some (.num x) => ⟨integerIssues path x, some x⟩
  | _ => wrongType .number path v

/-- A safe integer. -/
def versionCode : Check Number := fun path v =>
  match v with
  | some (.num x) => ⟨integerIssues path x ++ rangeIssues path x, some x⟩
  | _ => wrongType .number path v

/-- A part that may be missing. -/
def optional (c : Check α) : Check (Option α) := fun path v =>
  match v with
  | none => .ok none
  | some v => (c path (some v)).map some

/-- The items of a list from the `i`-th on. -/
def itemsFrom (c : Check α) (path : List PathStep) (i : Nat) : List Json → Checked (List α)
  | [] => .ok []
  | v :: rest =>
    ((c (path ++ [.index i]) (some v)).map List.cons).apply (itemsFrom c path (i + 1) rest)

/-- A list, every item of which is checked. -/
def list (c : Check α) : Check (List α) := fun path v =>
  match v with
  | some (.arr items) => itemsFrom c path 0 items
  | _ => wrongType .array path v

/-- A member of an object. -/
def member (name : String) (c : Check α) (path : List PathStep)
    (members : List (String × Json)) : Checked α :=
  c (path ++ [.member name]) (Json.lookup? name members)

/-- An object; members that are not asked for do not matter. -/
def object (c : List PathStep → List (String × Json) → Checked α) : Check α := fun path v =>
  match v with
  | some (.obj members) => c path members
  | _ => wrongType .object path v

end Check

end ChangeGate
