import ChangeGate.Change.State
import ChangeGate.Event
import ChangeGate.Verdict
/-!
# Mutations

The six ways to act on a change. `Change.apply` says what each of them does: the change
afterwards, the events in the order in which they arise, the package that the listener is to be
told of, and the answer to the caller. A mutation that is refused does nothing at all.

A raw override is recorded as soon as it is asked for. Reconciling a package then makes its
evaluated override what the raw one says of the installed version, provided that the verdict
allows it, and removes it otherwise.
-/

namespace ChangeGate

/-- **Why a mutation is refused.** The change is the one at the time of the refusal. -/
inductive ChangeError where
  | badId (got : Number)
  | listenerRegistered (change : Change)
  | loggingOnly (change : Change)
  | foreignSnapshot (got : Number) (change : Change)
  | bounds (error : BoundsError)
  | denied (denial : Denial)

def ChangeError.message : ChangeError → String
  | badId got => "Change id must be a safe integer, got " ++ got.text
  | listenerRegistered c => "Listener for change " ++ c.text ++ " already registered."
  | loggingOnly c => "Can't add overrides for a logging only change " ++ c.text
  | foreignSnapshot got c =>
    "Overrides for change " ++ got.text ++ " cannot be loaded into " ++ c.text
  | bounds e => e.message
  | denied d => d.message

/-- **A call that may change a change.** -/
inductive Mutation where
  | registerListener (listener : Nat)
  | setRawOverride (packageName : String) (override : PackageOverride) (verdict : Verdict)
      (version : Option Number)
  | recheck (packageName : Option String) (verdict : Verdict) (version : Option Number)
  | removeRawOverride (packageName : String) (verdict : Verdict) (version : Option Number)
  | clearOverrides
  | loadOverrides (snapshot : Snapshot)

/-- **What a mutation does.** The answer is absent for a mutation that has none. -/
structure Effect where
  change : Change
  events : List Event := []
  notify : Option String := none
  answer : Option Bool := none

namespace Change

/-- The change that a definition makes. -/
def ofDefinition (d : Definition) : Except ChangeError Change :=
  match d.profile? with
  | some profile => .ok { profile }
  | none => .error (.badId d.id)

/-- An event that concerns the whole change. -/
def event (c : Change) (kind : EventKind) : Event :=
  { kind, changeId := c.idNumber }

/-- An event about a package. -/
def packageEvent (c : Change) (kind : EventKind) (packageName : String)
    (enabled : Option Bool := none) : Event :=
  { kind, changeId := c.idNumber, packageName := some packageName, enabled }

/-! ## Reconciling -/

/-- **What a package's raw override decides,** if it has one, the verdict allows it and the
version is known and safe. -/
def decision? (c : Change) (packageName : String) (verdict : Verdict) (version : Option Number) :
    Option Decision :=
  match c.maps.raw.get? packageName, version with
  | some override, some v =>
    if verdict.allows ∧ v.toSafeInt?.isSome then some (override.evaluate v) else none
  | _, _ => none

/-- Makes `enabled` the evaluated override of a package. -/
def setEvaluated (c : Change) (packageName : String) (enabled : Bool) :
    Except ChangeError Effect :=
  if c.profile.loggingOnly then .error (.loggingOnly c)
  else .ok {
    change :=
      { c with maps := { c.maps with evaluated := c.maps.evaluated.insert packageName enabled } }
    events := [c.packageEvent .evaluatedSet packageName (some enabled)]
    notify := some packageName }

/-- Removes the evaluated override of a package, if it has one. -/
def removeEvaluated (c : Change) (packageName : String) : Effect :=
  if c.maps.evaluated.contains packageName then {
    change := { c with maps := { c.maps with evaluated := c.maps.evaluated.erase packageName } }
    events := [c.packageEvent .evaluatedRemoved packageName]
    notify := some packageName }
  else { change := c }

/-- **Reconciles a package.** The answer says whether there was a decision, be it that the
version is out of range. A missing or empty name is no package. -/
def reconcile (c : Change) (packageName : Option String) (verdict : Verdict)
    (version : Option Number) : Except ChangeError Effect :=
  match packageName with
  | none => .ok { change := c, answer := some false }
  | some name =>
    if name.isEmpty then .ok { change := c, answer := some false }
    else
      match c.decision? name verdict version with
      | none => .ok { c.removeEvaluated name with answer := some false }
      | some decision =>
        match decision.toBool? with
        | none => .ok { c.removeEvaluated name with answer := some true }
        | some enabled =>
          match c.setEvaluated name enabled with
          | .error e => .error e
          | .ok effect => .ok { effect with answer := some true }

/-! ## Loading -/

/-- **The maps that a snapshot would bring.** It has to be the change's own, its ranges have to be
ranges, and a logging-only change takes none that has an entry; the first of these that fails is
the one reported. -/
def foldSnapshot (c : Change) (s : Snapshot) : Except ChangeError OverrideMaps :=
  if s.changeId.same c.idNumber then
    match s.fold with
    | .error e => .error (.bounds e)
    | .ok maps =>
      if !maps.isEmpty && c.profile.loggingOnly then .error (.loggingOnly c) else .ok maps
  else .error (.foreignSnapshot s.changeId c)

/-- Whether a snapshot could be loaded. -/
def checkSnapshot (c : Change) (s : Snapshot) : Except ChangeError Unit :=
  match c.foldSnapshot s with
  | .error e => .error e
  | .ok _ => .ok ()

/-! ## The mutations -/

/-- Records a listener; a change has one at most. -/
def registerListener (c : Change) (listener : Nat) : Except ChangeError Effect :=
  if c.listener.isSome then .error (.listenerRegistered c)
  else .ok { change := { c with listener := some listener } }

/-- Records a raw override and reconciles its package. -/
def setRawOverride (c : Change) (packageName : String) (override : PackageOverride)
    (verdict : Verdict) (version : Option Number) : Except ChangeError Effect :=
  if c.profile.loggingOnly then .error (.loggingOnly c)
  else
    let recorded := { c with maps := { c.maps with raw := c.maps.raw.insert packageName override } }
    match recorded.reconcile (some packageName) verdict version with
    | .error e => .error e
    | .ok effect => .ok { effect with
        events := c.packageEvent .rawSet packageName (some override.enabled) :: effect.events
        answer := none }

/-- Removes a raw override and reconciles its package, if the verdict lets the caller do so. -/
def removeRawOverride (c : Change) (packageName : String) (verdict : Verdict)
    (version : Option Number) : Except ChangeError Effect :=
  if c.maps.raw.contains packageName then
    match verdict.enforce c.idNumber packageName with
    | .error denial => .error (.denied denial)
    | .ok () =>
      let removed := { c with maps := { c.maps with raw := c.maps.raw.erase packageName } }
      match removed.reconcile (some packageName) verdict version with
      | .error e => .error e
      | .ok effect => .ok { effect with
          events := c.packageEvent .rawRemoved packageName :: effect.events
          answer := some true }
  else .ok { change := c, answer := some false }

/-- Drops all overrides. The listener is not told. -/
def clearOverrides (c : Change) : Effect where
  change := { c with maps := .empty }
  events := [c.event .cleared]

/-- Merges a snapshot into the maps. The listener is not told, and a snapshot without entries
leaves no trace. -/
def loadOverrides (c : Change) (s : Snapshot) : Except ChangeError Effect :=
  match c.foldSnapshot s with
  | .error e => .error e
  | .ok maps =>
    if maps.isEmpty then .ok { change := c }
    else .ok { change := { c with maps := c.maps.merge maps }, events := [c.event .loaded] }

/-- **What a mutation does to a change.** -/
def apply (c : Change) : Mutation → Except ChangeError Effect
  | .registerListener listener => c.registerListener listener
  | .setRawOverride name override verdict version => c.setRawOverride name override verdict version
  | .recheck name verdict version => c.reconcile name verdict version
  | .removeRawOverride name verdict version => c.removeRawOverride name verdict version
  | .clearOverrides => .ok c.clearOverrides
  | .loadOverrides snapshot => c.loadOverrides snapshot

end Change

end ChangeGate
