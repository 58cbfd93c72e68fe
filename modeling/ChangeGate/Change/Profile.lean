import ChangeGate.Number.Decimal
/-!
# Profiles

A compatibility change is defined by a number and a default policy. `Definition` is what a
configuration says, `Profile` is what it comes to: the id is a safe integer, and the two ways to
state a target SDK gate are one.
-/

namespace ChangeGate

/-- A change as it is configured. -/
structure Definition where
  id : Number
  name : Option String := none
  enableAfterTargetSdk : Option Number := none
  enableSinceTargetSdk : Option Number := none
  disabled : Bool := false
  loggingOnly : Bool := false
  description : Option String := none
  overridable : Bool := false
deriving DecidableEq

/-- **A change's fixed part.** Without overrides a disabled change is off, a gated one is on from
its gate on, and any other is on. -/
structure Profile where
  id : SafeInt
  name : Option String
  gate : Option Number
  disabled : Bool
  loggingOnly : Bool
  description : Option String
  overridable : Bool
deriving DecidableEq

namespace Definition

/-- **The target SDK from which the change is on.** A positive "after" wins, and means the next
one; else a positive "since" counts; else there is no gate. -/
def gate (d : Definition) : Option Number :=
  match d.enableAfterTargetSdk.filter Number.isPositive with
  | some after => some after.addOne
  | none => d.enableSinceTargetSdk.filter Number.isPositive

/-- The profile, unless the id is no safe integer. -/
def profile? (d : Definition) : Option Profile :=
  d.id.toSafeInt?.map fun id => {
    id
    name := d.name
    gate := d.gate
    disabled := d.disabled
    loggingOnly := d.loggingOnly
    description := d.description
    overridable := d.overridable }

end Definition

/-- What stands for a gate where there is none. -/
def noGate : Number :=
  .ofSafeInt .minusOne

namespace Profile

/-- The gate, or the number that stands for none. -/
def gateNumber (p : Profile) : Number :=
  p.gate.getD noGate

/-- The value for a package without overrides, as long as no application is known. -/
def defaultValue (p : Profile) : Bool :=
  !p.disabled

/-- **The policy for an application.** Its target SDK counts only up to that of the platform. -/
def policy (p : Profile) (targetSdk platformSdk : Number) : Bool :=
  if p.disabled then false
  else
    match p.gate with
    | some gate => gate.le (targetSdk.min platformSdk)
    | none => true

end Profile

end ChangeGate
