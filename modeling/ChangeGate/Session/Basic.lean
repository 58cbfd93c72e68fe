import ChangeGate.Session.Command
/-!
# Sessions

A session holds the changes with their loggers, the listeners, the storage and the count of clock
readings. What the outside supplies, the time and random bits, is a `Supply`: functions of how
often they were asked.

A callback, be it a listener or a sink, is its reactions: the `k`-th call runs the `k`-th one, and
there is none after the last.
-/

namespace ChangeGate

/-- **What the outside supplies.** The `n`-th stamp of the clock that counts, and the time and the
eighty random bits for the `n`-th event written to a file. -/
structure Supply where
  stamp : Nat → String
  moment : Nat → Moment
  random : Nat → Nat
deriving Inhabited

/-- Where the events of a logger go. -/
inductive Sink where
  | file (filename : String)
  | script (failOn : List EventKind) (reactions : List Reaction)

/-- What a logger stamps events with: the count of its clock's readings, or the time of day. -/
inductive Clock where
  | counting
  | timeOfDay
deriving DecidableEq

/-- **A logger.** Without a sink it does nothing, and does not read its clock. -/
structure Logger where
  sink : Option Sink := none
  clock : Clock := .counting

/-- What the items count for together. -/
def total {α : Type} (count : α → Nat) : List α → Nat
  | [] => 0
  | item :: items => count item + total count items

/-- How many reactions its sink has still to come. -/
def Logger.reactionsLeft (l : Logger) : Nat :=
  match l.sink with
  | some (.script _ reactions) => reactions.length
  | _ => 0

/-- The log file of events. -/
def Logger.defaultFilename : String := "overrides.jsonl"

/-- A listener: its name, and its reactions to the calls still to come. -/
structure Listener where
  name : String
  reactions : List Reaction := []

/-- A change in a session. It is marked while a mutation of it is running. -/
structure Slot where
  change : Change
  mutating : Bool := false

/-- **A session.** The logger of a change stands at the change's place. -/
structure Session where
  slots : List Slot := []
  loggers : List Logger := []
  listeners : List Listener := []
  storage : Storage := .memory {}
  ticks : Nat := 0
  logged : Nat := 0

/-- **What happens in a session,** in the order in which it begins: a mutation is let in, or
refused because another one of the same change is running; its body ends; a listener or a sink is
called, with the outcomes of its reaction if it has one; a reaction gets to a command, with the
changes as it finds them; an event goes to a log file. -/
inductive Happening where
  | opened (change : Nat) (mutation : Mutation)
  | refused (change : Nat) (mutation : Mutation)
  | closed (change : Nat) (outcome : Except Fault (Option Bool))
  | notified (change : Nat) (listener package : String) (reaction : Option (List Attempt))
  | delivered (change : Nat) (event : StampedEvent) (reaction : Option (List Attempt))
  | reached (changes : List Change)
  | written (change : Nat) (event : StampedEvent)

/-- **What is left of a run:** the session, what happened and how it ended. -/
structure Done (α : Type) where
  session : Session
  journal : List Happening := []
  result : Except Fault α

/-- What is left of a reaction: as of a run, with the outcome of every command that was tried. -/
structure Reacted where
  session : Session
  journal : List Happening := []
  attempts : List Attempt := []
  fault : Option Fault := none

/-- Runs a reaction to a call about a package. -/
abbrev Reactor := Option String → Reaction → Session → Reacted

namespace Session

def change? (s : Session) (i : Nat) : Option Change :=
  s.slots[i]?.map (·.change)

def changes (s : Session) : List Change :=
  s.slots.map (·.change)

/-- Puts a change in its place, marked or not. -/
def setSlot (s : Session) (i : Nat) (slot : Slot) : Session :=
  { s with slots := s.slots.set i slot }

/-- Takes the mark off a change. -/
def release (s : Session) (i : Nat) : Session :=
  { s with slots := s.slots.modify i fun slot => { slot with mutating := false } }

/-- **The reactions still to come,** of all callbacks. -/
def reactionsLeft (s : Session) : Nat :=
  total (fun l => l.reactions.length) s.listeners + total Logger.reactionsLeft s.loggers

/-- A session with a clock reading, and what it shows. -/
def readClock (s : Session) (supply : Supply) : Clock → Session × String
  | .counting => ({ s with ticks := s.ticks + 1 }, supply.stamp s.ticks)
  | .timeOfDay => (s, (supply.moment s.logged).text)

end Session

/-- A failure in place of an answer. -/
def Done.fail {α : Type} (s : Session) (f : Fault) : Done α :=
  { session := s, result := .error f }

def Done.ok {α : Type} (s : Session) (a : α) : Done α :=
  { session := s, result := .ok a }

/-- **One run after another,** which starts only if the first one did not fail. -/
def Done.next {α β : Type} (d : Done α) (f : α → Session → Done β) : Done β :=
  match d.result with
  | .error e => { session := d.session, journal := d.journal, result := .error e }
  | .ok a =>
    let later := f a d.session
    { later with journal := d.journal ++ later.journal }

def Done.map {α β : Type} (f : α → β) (d : Done α) : Done β :=
  { d with result := d.result.map f }

end ChangeGate
