import ChangeGate.Identifier.Ulid
import ChangeGate.Moment
import ChangeGate.Override.Draft
import ChangeGate.Store
/-!
# Commands

What can be asked of a session, and what it answers. A command names changes by their place in
the session. Commands run on behalf of a caller, or as the reaction of a listener or a sink to a
call of the session; there a command can name the package of that call.
-/

namespace ChangeGate

/-- A package named in a command. -/
inductive PackageRef where
  | absent
  | named (name : String)
  | notified
deriving DecidableEq

/-- The package meant, given the one that the call is about. -/
def PackageRef.resolve (notified? : Option String) : PackageRef → Option String
  | absent => none
  | named name => some name
  | notified => notified?

/-- **A question about one change.** It never changes anything. -/
inductive Query where
  | isEnabled (app : Option Application) (platformSdk : Number)
  | willBeEnabled (package : PackageRef)
  | rawOverride (package : PackageRef)
  | evaluatedOverride (package : PackageRef)
  | rawOverrides
  | evaluatedOverrides
  | hasOverrides
  | defaultValue
  | profile
  | text
  | snapshot
deriving DecidableEq

/-- What a state file is checked against. -/
inductive Expected where
  | file
  | change
  | anything
deriving DecidableEq

/-- The check of an expectation; what it accepts is given without the parts that do not
belong. -/
def Expected.check : Expected → Check Json
  | file => StateFile.check.map StateFile.toJson
  | change => Snapshot.check.map Snapshot.toJson
  | anything => Check.any

/-- A call on the storage of the session. -/
inductive StorageCommand where
  | readJson (filename : String) (expected : Expected) (fallback : Json)
  | writeJson (filename : String) (value : Json)
  | appendLine (filename line : String)
  | plant (filename : String) (content : Storage.Content)
  | rawText (filename : String)
  | lines (filename : String)
  | listing

/-- **A command.** To set an override for no package is to set it for the empty name; to remove
one for no package finds nothing. -/
inductive Command where
  | registerListener (change listener : Nat)
  | setRawOverride (change : Nat) (package : PackageRef) (draft : OverrideDraft)
      (verdict : Verdict) (version : Option Number)
  | recheck (change : Nat) (package : PackageRef) (verdict : Verdict) (version : Option Number)
  | removeRawOverride (change : Nat) (package : PackageRef) (verdict : Verdict)
      (version : Option Number)
  | clearOverrides (change : Nat)
  | loadOverrides (change : Nat) (snapshot : Snapshot)
  | checkOverrides (change : Nat) (snapshot : Snapshot)
  | transfer (change source : Nat)
  | query (change : Nat) (query : Query)
  | save (changes : List Nat) (filename : String)
  | load (changes : List Nat) (filename : String)
  | readStore (filename : String)
  | storage (command : StorageCommand)
  | raise (message : String)

/-- A command of a reaction. If it is guarded, its failure does not leave the reaction. -/
structure Step where
  command : Command
  guarded : Bool := false

/-- **What a callback does when it is called once.** -/
abbrev Reaction := List Step

/-- **Why a command fails.** If a mutation and the delivery of its events both fail, both causes
are kept. -/
inductive Fault where
  | change (error : ChangeError)
  | bounds (error : BoundsError)
  | reentrant (id : SafeInt)
  | storage (error : StorageError)
  | raised (message : String)
  | sinkUnavailable
  | noSuchChange (index : Nat)
  | both (id : SafeInt) (mutation delivery : Fault)

def Fault.message : Fault → String
  | change e => e.message
  | bounds e => e.message
  | reentrant id =>
    "Re-entrant mutation of change " ++ id.text ++
      "; listeners must not modify the change that notified them."
  | storage e => e.message
  | raised message => message
  | sinkUnavailable => "sink unavailable"
  | noSuchChange index => "no change " ++ toString index
  | both id _ _ => "Change " ++ id.text ++ " mutation and its event log both failed"

/-- What a command answers. -/
inductive Answer where
  | nothing
  | flag (value : Bool)
  | count (n : Nat)
  | text (text : String)
  | lines (lines : List String)
  | paths (paths : List String)
  | override (override : PackageOverride)
  | overrides (map : NameMap PackageOverride)
  | flags (map : NameMap Bool)
  | profile (profile : Profile)
  | snapshot (snapshot : Snapshot)
  | snapshots (snapshots : List Snapshot)
  | loaded (outcome : Store.Loaded)
  | json (value : Json)

/-- How one command ended. -/
abbrev Attempt := Except Fault Answer

end ChangeGate
