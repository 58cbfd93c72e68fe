import ChangeGate.Snapshot.Basic
import ChangeGate.Schema.Checked
/-!
# Kept snapshots as JSON

The JSON form of a snapshot and of the state file, which holds the snapshots of all changes:
`Snapshot.toJson` and `StateFile.toJson` write it, `Snapshot.check` and `StateFile.check` say
what is wrong with a value that is to be read as one.
-/

namespace ChangeGate

/-- **What a state file holds.** Its format has one version, so none is kept. -/
structure StateFile where
  changes : List Snapshot
deriving DecidableEq

/-! ## Checks -/

namespace RawEntry

/-- The bounds of an entry, if it has both, are in order. -/
def boundsInOrder (e : RawEntry) : Bool :=
  match e.min, e.max with
  | some a, some b => a.le b
  | _, _ => true

/-- The members of an entry. -/
def checkMembers (path : List PathStep) (members : List (String × Json)) : Checked RawEntry :=
  ((Check.member "packageName" Check.name path members).map RawEntry.mk)
    |>.apply (Check.member "minVersionCode" (Check.optional Check.versionCode) path members)
    |>.apply (Check.member "maxVersionCode" (Check.optional Check.versionCode) path members)
    |>.apply (Check.member "enabled" Check.boolean path members)

/-- The issue of an entry whose bounds are inverted. It is looked for as soon as the entry can be
read, whatever else is wrong with it. -/
def orderIssues (path : List PathStep) (e : Option RawEntry) : List Issue :=
  match e with
  | some e =>
    if e.boundsInOrder then [] else [⟨path ++ [.member "maxVersionCode"], .invertedBounds⟩]
  | none => []

def check : Check RawEntry := fun path v =>
  let entry := Check.object checkMembers path v
  ⟨entry.issues ++ orderIssues path entry.read, entry.read⟩

end RawEntry

def ValueEntry.check : Check ValueEntry :=
  Check.object fun path members =>
    ((Check.member "packageName" Check.name path members).map ValueEntry.mk)
      |>.apply (Check.member "enabled" Check.boolean path members)

def Snapshot.check : Check Snapshot :=
  Check.object fun path members =>
    ((Check.member "changeId" Check.integer path members).map Snapshot.mk)
      |>.apply (Check.member "raw" (Check.optional (Check.list RawEntry.check)) path members)
      |>.apply
        (Check.member "validated" (Check.optional (Check.list ValueEntry.check)) path members)
      |>.apply
        (Check.member "deferred" (Check.optional (Check.list ValueEntry.check)) path members)

/-- The version of the format, which is one. -/
def StateFile.checkVersion : Check Unit := fun path v =>
  match v with
  | some (.num x) =>
    if x = .ofSafeInt .one then .ok ()
    else .refused ⟨path, .wrongVersion v⟩
  | _ => .refused ⟨path, .wrongVersion v⟩

def StateFile.check : Check StateFile :=
  Check.object fun path members =>
    ((Check.member "version" StateFile.checkVersion path members).map fun _ => StateFile.mk)
      |>.apply (Check.member "changes" (Check.list Snapshot.check) path members)

/-! ## JSON forms -/

def RawEntry.toJson (e : RawEntry) : Json :=
  .obj (Json.present [("packageName", some (.str e.packageName)),
    ("minVersionCode", e.min.map .num), ("maxVersionCode", e.max.map .num),
    ("enabled", some (.bool e.enabled))])

def ValueEntry.toJson (e : ValueEntry) : Json :=
  .obj [("packageName", .str e.packageName), ("enabled", .bool e.enabled)]

def Snapshot.toJson (s : Snapshot) : Json :=
  .obj (Json.present [("changeId", some (.num s.changeId)),
    ("raw", s.raw.map fun es => .arr (es.map RawEntry.toJson)),
    ("validated", s.validated.map fun es => .arr (es.map ValueEntry.toJson)),
    ("deferred", s.deferred.map fun es => .arr (es.map ValueEntry.toJson))])

def StateFile.toJson (f : StateFile) : Json :=
  .obj [("version", .ofNat 1), ("changes", .arr (f.changes.map Snapshot.toJson))]

end ChangeGate
