import ChangeGate.Change.Mutation
import ChangeGate.Snapshot.Schema
import ChangeGate.Storage.Basic
/-!
# The store

The overrides of all changes are kept in one state file. Saving writes the snapshots of the
changes that have one, in the order of their ids. Loading is planned before anything is touched:
every snapshot is assigned to the change of its id and checked against it, so a file that is
refused leaves all changes as they were.
-/

namespace ChangeGate

namespace Store

/-- The state file of the overrides. -/
def defaultFilename : String := "compat-overrides.json"

/-- The snapshots that a storage holds; none if there is no file. -/
def read (storage : Storage) (filename : String) (disk : Disk := .sound) :
    Except StorageError (List Snapshot) :=
  match storage.readJson StateFile.check filename ⟨[]⟩ disk with
  | .ok file => .ok file.changes
  | .error e => .error e

/-- Puts a snapshot before the first one whose id is not less. -/
def insertById (s : Snapshot) : List Snapshot → List Snapshot
  | [] => [s]
  | t :: rest => if s.changeId.le t.changeId then s :: t :: rest else t :: insertById s rest

/-- **The order of the state file:** by id, and snapshots of one id as they come. -/
def sortById (snapshots : List Snapshot) : List Snapshot :=
  snapshots.foldr insertById []

/-- **What is saved of a list of changes.** -/
def snapshots (changes : List Change) : List Snapshot :=
  sortById (changes.filterMap Change.snapshot?)

/-- Replaces the state file by the snapshots of the changes, and gives their number. -/
def save (storage : Storage) (filename : String) (changes : List Change)
    (disk : Disk := .sound) : Storage × Except StorageError Nat :=
  let kept := snapshots changes
  match storage.writeJson filename (StateFile.toJson ⟨kept⟩) disk with
  | (written, .ok ()) => (written, .ok kept.length)
  | (written, .error e) => (written, .error e)

/-! ## Loading -/

/-- A change that takes part in a load, under the key by which the caller knows it. -/
structure Target (κ : Type) where
  key : κ
  change : Change

variable {κ : Type}

/-- Adds a target, instead of one of the same id if there is one. -/
def addTarget (t : Target κ) : List (Target κ) → List (Target κ)
  | [] => [t]
  | u :: rest =>
    if u.change.profile.id = t.change.profile.id then t :: rest else u :: addTarget t rest

/-- **The targets of a load,** one for each id: of two with the same id the later one counts. -/
def targets (ts : List (Target κ)) : List (Target κ) :=
  ts.foldl (fun acc t => addTarget t acc) []

/-- The target of a snapshot's id. -/
def target? (ts : List (Target κ)) (id : Number) : Option (Target κ) :=
  ts.find? fun t => t.change.idNumber.same id

/-- **What a load is going to do:** the snapshots with their targets and the ids without one, both
in the order of the file. -/
structure Plan (κ : Type) where
  matched : List (Target κ × Snapshot) := []
  unknown : List Number := []

/-- **Assigns and checks every snapshot.** The first one that its change refuses is reported. -/
def plan (ts : List (Target κ)) : List Snapshot → Except ChangeError (Plan κ)
  | [] => .ok {}
  | s :: rest =>
    match target? ts s.changeId with
    | none =>
      match plan ts rest with
      | .error e => .error e
      | .ok p => .ok { p with unknown := s.changeId :: p.unknown }
    | some t =>
      match t.change.checkSnapshot s with
      | .error e => .error e
      | .ok () =>
        match plan ts rest with
        | .error e => .error e
        | .ok p => .ok { p with matched := (t, s) :: p.matched }

/-- The outcome of a load: the ids that were loaded and those that no change has. -/
structure Loaded where
  loaded : List Number
  unknown : List Number
deriving DecidableEq

def Plan.loaded (p : Plan κ) : Loaded where
  loaded := p.matched.map fun m => m.2.changeId
  unknown := p.unknown

end Store

end ChangeGate
