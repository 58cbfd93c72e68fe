import ChangeGate.Override.Basic
import ChangeGate.NameMap
/-!
# Snapshots

A change keeps two maps of overrides (`OverrideMaps`): the raw ones, which are what was asked
for, and the evaluated ones, which are what holds for the installed version. A snapshot is how
the two are kept between runs: lists of entries, of which a later one of a package wins.

There are three categories. An entry of `raw` is an override with its range. An entry of
`validated` is an evaluated value, and stands for an unconditional override as well. An entry of
`deferred`, which is read but not written, is an unconditional override. For a package's
override, `raw` wins over `validated` and `validated` over `deferred`.

`Snapshot.fold` reads a snapshot into maps and `OverrideMaps.snapshot?` writes one.
-/

namespace ChangeGate

/-- **The overrides of a change:** what was asked for and what holds. -/
structure OverrideMaps where
  raw : NameMap PackageOverride
  evaluated : NameMap Bool
deriving DecidableEq

namespace OverrideMaps

def empty : OverrideMaps := ⟨.empty, .empty⟩

def isEmpty (m : OverrideMaps) : Bool :=
  m.raw.isEmpty && m.evaluated.isEmpty

/-- The entries of `other` over those of `m`. -/
def merge (m other : OverrideMaps) : OverrideMaps :=
  ⟨m.raw.merge other.raw, m.evaluated.merge other.evaluated⟩

end OverrideMaps

/-- An override with its range, as it is kept. -/
structure RawEntry where
  packageName : String
  min : Option Number := none
  max : Option Number := none
  enabled : Bool
deriving DecidableEq

/-- A value that holds for every version, as it is kept. -/
structure ValueEntry where
  packageName : String
  enabled : Bool
deriving DecidableEq

/-- **The kept overrides of one change.** -/
structure Snapshot where
  changeId : Number
  raw : Option (List RawEntry) := none
  validated : Option (List ValueEntry) := none
  deferred : Option (List ValueEntry) := none
deriving DecidableEq

namespace RawEntry

/-- The override of an entry, if its bounds are a range. -/
def override (e : RawEntry) : Except BoundsError PackageOverride :=
  PackageOverride.make e.min e.max e.enabled

/-- The entry of an override. -/
def ofOverride (packageName : String) (p : PackageOverride) : RawEntry where
  packageName
  min := p.min.map .ofSafeInt
  max := p.max.map .ofSafeInt
  enabled := p.enabled

/-- The overrides of a list of entries, or what is wrong with the first bad one. -/
def overrides : List RawEntry → Except BoundsError (List (String × PackageOverride))
  | [] => .ok []
  | e :: rest =>
    match e.override with
    | .error err => .error err
    | .ok p =>
      match overrides rest with
      | .error err => .error err
      | .ok ps => .ok ((e.packageName, p) :: ps)

end RawEntry

namespace ValueEntry

/-- The entry as an override for every version. -/
def unconditional (e : ValueEntry) : String × PackageOverride :=
  (e.packageName, .unconditional e.enabled)

/-- The entry as a value. -/
def value (e : ValueEntry) : String × Bool :=
  (e.packageName, e.enabled)

end ValueEntry

namespace Snapshot

def rawEntries (s : Snapshot) : List RawEntry := s.raw.getD []

def validatedEntries (s : Snapshot) : List ValueEntry := s.validated.getD []

def deferredEntries (s : Snapshot) : List ValueEntry := s.deferred.getD []

/-- Whether a snapshot has an entry in some category. -/
def hasEntries (s : Snapshot) : Bool :=
  !(s.rawEntries.isEmpty && s.validatedEntries.isEmpty && s.deferredEntries.isEmpty)

/-- **The maps of a snapshot.** The categories are put in one after the other, so that a later
one wins. -/
def fold (s : Snapshot) : Except BoundsError OverrideMaps :=
  match RawEntry.overrides s.rawEntries with
  | .error err => .error err
  | .ok raw => .ok {
      raw := .ofList (s.deferredEntries.map ValueEntry.unconditional ++
        s.validatedEntries.map ValueEntry.unconditional ++ raw)
      evaluated := .ofList (s.validatedEntries.map ValueEntry.value) }

end Snapshot

/-- **The snapshot of two maps,** with its entries in the order of names. Without a raw override
there is nothing to keep. -/
def OverrideMaps.snapshot? (m : OverrideMaps) (changeId : Number) : Option Snapshot :=
  if m.raw.isEmpty then none
  else some {
    changeId
    raw := some (m.raw.entries.map fun e => .ofOverride e.1 e.2)
    validated := some (m.evaluated.entries.map fun e => ⟨e.1, e.2⟩) }

end ChangeGate
