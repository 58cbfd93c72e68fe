import ChangeGate.Override.Basic
/-!
# Drafts of an override

A draft collects the parts of a package override one by one. Nothing is checked until it is
built, and a draft that does not build can still be mended.
-/

namespace ChangeGate

/-- **An override in the making:** the bounds and the flag set last. -/
structure OverrideDraft where
  min : Option Number := none
  max : Option Number := none
  enabled : Bool := false
deriving DecidableEq

namespace OverrideDraft

/-- One call on a draft. -/
inductive Edit where
  | setMin (value : Option Number)
  | setMax (value : Option Number)
  | setEnabled (value : Bool)
  | build
deriving DecidableEq

def build (d : OverrideDraft) : Except BoundsError PackageOverride :=
  PackageOverride.make d.min d.max d.enabled

/-- The draft after a call. Building leaves it as it is. -/
def edit (d : OverrideDraft) : Edit → OverrideDraft
  | .setMin value => { d with min := value }
  | .setMax value => { d with max := value }
  | .setEnabled value => { d with enabled := value }
  | .build => d

/-- What a call answers: the override, or why there is none, if it builds one. -/
def answer (d : OverrideDraft) : Edit → Option (Except BoundsError PackageOverride)
  | .build => some d.build
  | _ => none

/-- **The answers to a sequence of calls** on one draft. -/
def answers (d : OverrideDraft) : List Edit → List (Option (Except BoundsError PackageOverride))
  | [] => []
  | e :: rest => d.answer e :: answers (d.edit e) rest

end OverrideDraft

end ChangeGate
