import ChangeGate.Number.Decimal
/-!
# Package overrides

A package override asks for a change to be on or off for a range of installed versions. It has a
lower and an upper bound, each of which may be absent, and the flag asked for. `Range` and
`PackageOverride` hold valid bounds only: safe integers, the lower one not above the upper one.

`PackageOverride.make` builds an override from any two numbers and says what is wrong with them.
-/

namespace ChangeGate

/-- Which bound of a range. -/
inductive Bound where
  | min
  | max
deriving DecidableEq

/-- What makes two numbers no bounds of a range. -/
inductive BoundsError where
  | notSafe (bound : Bound) (got : Number)
  | inverted (min max : SafeInt)
deriving DecidableEq

def Bound.name : Bound → String
  | .min => "minVersionCode"
  | .max => "maxVersionCode"

def BoundsError.message : BoundsError → String
  | .notSafe bound got => bound.name ++ " must be a safe integer, got " ++ got.text
  | .inverted min max =>
    Bound.min.name ++ " (" ++ min.text ++ ") must not be greater than " ++
      Bound.max.name ++ " (" ++ max.text ++ ")"

/-- What an override says of a version. -/
inductive Decision where
  | undefined
  | enabled
  | disabled
deriving DecidableEq

def Decision.ofBool (on : Bool) : Decision :=
  if on then .enabled else .disabled

/-- What a decision fixes: nothing if it is undefined. -/
def Decision.toBool? : Decision → Option Bool
  | .undefined => none
  | .enabled => some true
  | .disabled => some false

@[simp] theorem Decision.toBool?_ofBool (on : Bool) : (ofBool on).toBool? = some on := by
  cases on <;> rfl

/-- **An override for a range of versions.** Both bounds are inclusive, and a range holds at
least one version. -/
structure PackageOverride where
  min : Option SafeInt
  max : Option SafeInt
  enabled : Bool
  ordered : ∀ a ∈ min, ∀ b ∈ max, a ≤ b
deriving DecidableEq

namespace PackageOverride

@[ext] theorem ext {p q : PackageOverride} (hmin : p.min = q.min) (hmax : p.max = q.max)
    (henabled : p.enabled = q.enabled) : p = q := by
  cases p; cases q; simp_all

/-- A bound is absent or a safe integer. -/
def readBound (bound : Bound) : Option Number → Except BoundsError (Option SafeInt)
  | none => .ok none
  | some x =>
    match x.toSafeInt? with
    | some n => .ok (some n)
    | none => .error (.notSafe bound x)

/-- **The override of two bounds and a flag.** The lower bound is looked at first, then the
upper one, then their order. -/
def make (min max : Option Number) (enabled : Bool) : Except BoundsError PackageOverride :=
  match readBound .min min with
  | .error e => .error e
  | .ok min =>
    match readBound .max max with
    | .error e => .error e
    | .ok max =>
      match min, max with
      | some a, some b =>
        if h : a ≤ b then .ok ⟨some a, some b, enabled, by simpa using h⟩
        else .error (.inverted a b)
      | some a, none => .ok ⟨some a, none, enabled, by simp⟩
      | none, max => .ok ⟨none, max, enabled, by simp⟩

/-- The override that holds for every version. -/
def unconditional (enabled : Bool) : PackageOverride :=
  ⟨none, none, enabled, by simp⟩

def isUnconditional (p : PackageOverride) : Bool :=
  p.min = none && p.max = none

/-- Whether a version is in the range. -/
def covers (p : PackageOverride) (version : SafeInt) : Bool :=
  p.min.all (· ≤ version) && p.max.all (version ≤ ·)

/-- **What the override says of a version code.** One that is no safe integer is in no range. -/
def evaluate (p : PackageOverride) (version : Number) : Decision :=
  match version.toSafeInt? with
  | none => .undefined
  | some v => if p.covers v then .ofBool p.enabled else .undefined

/-- What the override says without a version: something only if every version is in range. -/
def evaluateForAllVersions (p : PackageOverride) : Decision :=
  if p.isUnconditional then .ofBool p.enabled else .undefined

/-- The text of an override, with an infinity for an absent bound. -/
def text (p : PackageOverride) : String :=
  "PackageOverride[" ++ (p.min.map SafeInt.text).getD "-∞" ++ "-" ++
    (p.max.map SafeInt.text).getD "∞" ++ ": " ++ toString p.enabled ++ "]"

end PackageOverride

end ChangeGate
