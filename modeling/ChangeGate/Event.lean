import ChangeGate.Json.Printer
/-!
# Events

Every mutation of a change's overrides tells what it did by events. An event gets a time stamp
when it is delivered, and a log keeps one line of JSON for each.
-/

namespace ChangeGate

/-- What happened to an override, or to all of a change. -/
inductive EventKind where
  | rawSet
  | rawRemoved
  | evaluatedSet
  | evaluatedRemoved
  | cleared
  | loaded
deriving DecidableEq

namespace EventKind

def name : EventKind → String
  | rawSet => "raw-set"
  | rawRemoved => "raw-removed"
  | evaluatedSet => "evaluated-set"
  | evaluatedRemoved => "evaluated-removed"
  | cleared => "cleared"
  | loaded => "loaded"

def all : List EventKind :=
  [rawSet, rawRemoved, evaluatedSet, evaluatedRemoved, cleared, loaded]

def ofName? (s : String) : Option EventKind :=
  all.find? fun k => k.name = s

end EventKind

/-- **One event.** The package is absent if the event concerns the whole change; the flag is the
one that was set. -/
structure Event where
  kind : EventKind
  changeId : Number
  packageName : Option String := none
  enabled : Option Bool := none
deriving DecidableEq

/-- An event with the time at which it was delivered. -/
structure StampedEvent where
  event : Event
  timestamp : String
deriving DecidableEq

/-- The members of a log line. What the event does not have is left out. -/
def StampedEvent.members (e : StampedEvent) (eventId : String) : List (String × Json) :=
  Json.present [("event_id", some (.str eventId)), ("timestamp", some (.str e.timestamp)),
    ("kind", some (.str e.event.kind.name)), ("changeId", some (.num e.event.changeId)),
    ("packageName", e.event.packageName.map .str), ("enabled", e.event.enabled.map .bool)]

/-- **The log line of an event.** -/
def StampedEvent.line (e : StampedEvent) (eventId : String) : String :=
  (Json.obj (e.members eventId)).compact

end ChangeGate
