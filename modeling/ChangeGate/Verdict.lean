import ChangeGate.Number.Decimal
/-!
# Verdicts

Whether an override may be made is decided elsewhere, by a policy. Its verdict comes with every
call that changes an override. A verdict allows the override to take effect, or defers the
decision, in which case the override may be recorded but does nothing yet, or denies it.

`Verdict.allows` says whether an override may take effect now, `Verdict.enforce` whether it may
be changed at all.
-/

namespace ChangeGate

/-- Why an override is allowed or denied. -/
inductive Reason where
  | allowed
  | deferredVerification
  | disabledNotDebuggable
  | disabledNonTargetSdk
  | disabledTargetSdkTooHigh
  | loggingOnlyChange
  | platformTooOld
deriving DecidableEq

namespace Reason

def name : Reason → String
  | allowed => "Allowed"
  | deferredVerification => "DeferredVerification"
  | disabledNotDebuggable => "DisabledNotDebuggable"
  | disabledNonTargetSdk => "DisabledNonTargetSdk"
  | disabledTargetSdkTooHigh => "DisabledTargetSdkTooHigh"
  | loggingOnlyChange => "LoggingOnlyChange"
  | platformTooOld => "PlatformTooOld"

def all : List Reason :=
  [allowed, deferredVerification, disabledNotDebuggable, disabledNonTargetSdk,
    disabledTargetSdkTooHigh, loggingOnlyChange, platformTooOld]

def ofName? (s : String) : Option Reason :=
  all.find? fun r => r.name = s

/-- Whether a caller with this verdict must not change the override. -/
def denies : Reason → Bool
  | allowed => false
  | deferredVerification => false
  | _ => true

end Reason

/-- The number that stands for an unknown or missing SDK level. -/
def unknownSdk : Number :=
  .ofSafeInt .minusOne

/-- **The verdict of the policy,** with the SDK levels that its message names. -/
structure Verdict where
  reason : Reason
  appTargetSdk : Number := unknownSdk
  changeTargetSdk : Number := unknownSdk
deriving DecidableEq

/-- **A denial:** the change, the package and the verdict that forbids the override. -/
structure Denial where
  changeId : Number
  packageName : String
  verdict : Verdict
deriving DecidableEq

def Denial.message (d : Denial) : String :=
  match d.verdict.reason with
  | .allowed => ""
  | .deferredVerification => ""
  | .disabledNotDebuggable => "Cannot override a change on a non-debuggable app and user build."
  | .disabledNonTargetSdk => "Cannot override a default enabled/disabled change on a user build."
  | .disabledTargetSdkTooHigh =>
    "Cannot override " ++ d.changeId.text ++ " for " ++ d.packageName ++
      " because the app's targetSdk (" ++ d.verdict.appTargetSdk.text ++
      ") is above the change's targetSdk threshold (" ++ d.verdict.changeTargetSdk.text ++ ")"
  | .loggingOnlyChange =>
    "Cannot override " ++ d.changeId.text ++ " because it is marked as a logging-only change."
  | .platformTooOld =>
    "Cannot override " ++ d.changeId.text ++ " for " ++ d.packageName ++
      " because the change's targetSdk threshold (" ++ d.verdict.changeTargetSdk.text ++
      ") is above the platform sdk."

namespace Verdict

def allowed : Verdict := { reason := .allowed }

/-- The package cannot be judged yet. -/
def deferred : Verdict := { reason := .deferredVerification }

/-- Whether an override may take effect now. -/
def allows (v : Verdict) : Bool :=
  v.reason = .allowed

/-- **Whether the caller may change the override at all.** A deferred verdict lets it through. -/
def enforce (v : Verdict) (changeId : Number) (packageName : String) : Except Denial Unit :=
  if v.reason.denies then .error ⟨changeId, packageName, v⟩ else .ok ()

/-- Equality of verdicts, that of their SDK levels being numeric. -/
def same (v w : Verdict) : Bool :=
  v.reason = w.reason && v.appTargetSdk.same w.appTargetSdk &&
    v.changeTargetSdk.same w.changeTargetSdk

def text (v : Verdict) : String :=
  "OverrideAllowedState(reason=" ++ v.reason.name ++ "; appTargetSdk=" ++ v.appTargetSdk.text ++
    "; changeTargetSdk=" ++ v.changeTargetSdk.text ++ ")"

end Verdict

end ChangeGate
