import ChangeGate.Change.Profile
import ChangeGate.Snapshot.Basic
/-!
# Changes

A change is its profile, its two maps of overrides and the listener that is told when an
evaluated override changes. `Change.isEnabled` answers for an application that is installed, from
the evaluated overrides alone; `Change.willBeEnabled` answers for one that is not, from the raw
ones.
-/

namespace ChangeGate

/-- **A change with its overrides.** The listener is the number under which it is known. -/
structure Change where
  profile : Profile
  maps : OverrideMaps := .empty
  listener : Option Nat := none
deriving DecidableEq

/-- What is known of an application. -/
structure Application where
  packageName : Option String
  targetSdk : Number
deriving DecidableEq

namespace Change

/-- The id as the number that events and snapshots carry. -/
def idNumber (c : Change) : Number :=
  .ofSafeInt c.profile.id

def hasOverrides (c : Change) : Bool :=
  !c.maps.isEmpty

/-- **Whether the change is on for an installed application.** -/
def isEnabled (c : Change) (app : Option Application) (platformSdk : Number) : Bool :=
  match app with
  | none => c.profile.defaultValue
  | some app =>
    (app.packageName.bind c.maps.evaluated.get?).getD (c.profile.policy app.targetSdk platformSdk)

/-- **Whether the change will be on for a package** whatever version is installed. -/
def willBeEnabled (c : Change) (packageName : Option String) : Bool :=
  ((packageName.bind c.maps.raw.get?).bind fun p => p.evaluateForAllVersions.toBool?).getD
    c.profile.defaultValue

/-- The overrides as a snapshot, if there is a raw one. -/
def snapshot? (c : Change) : Option Snapshot :=
  c.maps.snapshot? c.idNumber

/-! ## The text of a change -/

/-- The entries of a map in braces. -/
def mapText {α : Type} (value : α → String) (m : NameMap α) : String :=
  "\x7b" ++ ", ".intercalate (m.entries.map fun e => e.1 ++ "=" ++ value e.2) ++ "\x7d"

/-- The parts of the text behind the id, without those that say nothing. -/
def textParts (c : Change) : List String :=
  let p := c.profile
  (match p.name with
    | some name => ["name=" ++ name]
    | none => []) ++
  (match p.gate with
    | some gate => ["enableSinceTargetSdk=" ++ gate.text]
    | none => []) ++
  (if p.disabled then ["disabled"] else []) ++
  (if p.loggingOnly then ["loggingOnly"] else []) ++
  (if c.maps.evaluated.isEmpty then []
    else ["packageOverrides=" ++ mapText toString c.maps.evaluated]) ++
  (if c.maps.raw.isEmpty then []
    else ["rawOverrides=" ++ mapText PackageOverride.text c.maps.raw]) ++
  (if p.overridable then ["overridable"] else [])

/-- **A change as text:** its id and what sets it apart from a plain one. -/
def text (c : Change) : String :=
  "ChangeId(" ++ "; ".intercalate (c.profile.id.text :: c.textParts) ++ ")"

end Change

end ChangeGate
