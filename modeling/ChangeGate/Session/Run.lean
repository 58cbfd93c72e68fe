import ChangeGate.Session.Basic
/-!
# Running commands

A mutation runs in three stages. It is let in only if no other mutation of the same change is
running. Its body acts on the change and tells the listener; meanwhile the change is marked, so
that the listener can look at it but not mutate it. Once the body has ended, the mark is gone and
the events go to the logger one by one, even if the listener failed; the first event that the sink
fails on is the last one.

`Session.perform` runs one command. Reactions run commands in turn, so the runner is given the
runner for reactions one level down. A call of a callback uses up one of its reactions, and the
number of reactions left bounds the depth.
-/

namespace ChangeGate

namespace Session

/-! ## Callbacks -/

/-- **Calls a listener** about a package. -/
def callListener (react : Reactor) (i listener : Nat) (package : String) (s : Session) :
    Done Unit :=
  match s.listeners[listener]? with
  | none => .ok s ()
  | some l =>
    match l.reactions with
    | [] => { session := s, journal := [.notified i l.name package none], result := .ok () }
    | reaction :: later =>
      let r := react (some package) reaction
        { s with listeners := s.listeners.set listener { l with reactions := later } }
      { session := r.session
        journal := .notified i l.name package (some r.attempts) :: r.journal
        result :=
          match r.fault with
          | none => .ok ()
          | some f => .error f }

/-- Tells the listener of a change, if it has one and there is something to tell. -/
def tell (react : Reactor) (i : Nat) (listener : Option Nat) (package : Option String)
    (s : Session) : Done Unit :=
  match listener, package with
  | some l, some p => s.callListener react i l p
  | _, _ => .ok s ()

/-- **Hands an event to a scripted sink.** It counts as a call even if the sink fails on its
kind. -/
def callSink (react : Reactor) (i : Nat) (logger : Logger) (failOn : List EventKind)
    (reactions : List Reaction) (e : StampedEvent) (s : Session) : Done Unit :=
  let left : Logger := { logger with sink := some (.script failOn reactions.tail) }
  let used := { s with loggers := s.loggers.set i left }
  if failOn.contains e.event.kind then
    { session := used, journal := [.delivered i e none], result := .error .sinkUnavailable }
  else
    match reactions with
    | [] => { session := used, journal := [.delivered i e none], result := .ok () }
    | reaction :: _ =>
      let r := react e.event.packageName reaction used
      { session := r.session
        journal := .delivered i e (some r.attempts) :: r.journal
        result :=
          match r.fault with
          | none => .ok ()
          | some f => .error f }

/-- Writes an event to a log file under an id of its own. -/
def writeEvent (supply : Supply) (i : Nat) (filename : String) (e : StampedEvent) (s : Session) :
    Done Unit :=
  let id := Ulid.encode (supply.moment s.logged).milliseconds (supply.random s.logged)
  let (storage, outcome) := s.storage.appendLine filename (e.line id)
  { session := { s with storage, logged := s.logged + 1 }
    journal := [.written i e]
    result :=
      match outcome with
      | .ok () => .ok ()
      | .error err => .error (.storage err) }

/-- **Delivers one event:** stamps it and hands it to the sink. -/
def deliverOne (supply : Supply) (react : Reactor) (i : Nat) (e : Event) (s : Session) :
    Done Unit :=
  match s.loggers[i]? with
  | none => .ok s ()
  | some logger =>
    match logger.sink with
    | none => .ok s ()
    | some sink =>
      let (s, timestamp) := s.readClock supply logger.clock
      match sink with
      | .file filename => s.writeEvent supply i filename ⟨e, timestamp⟩
      | .script failOn reactions => s.callSink react i logger failOn reactions ⟨e, timestamp⟩

/-- Delivers events in order, up to the first one that fails. -/
def deliver (supply : Supply) (react : Reactor) (i : Nat) : List Event → Session → Done Unit
  | [], s => .ok s ()
  | e :: rest, s => (s.deliverOne supply react i e).next fun _ s => deliver supply react i rest s

/-! ## Mutations -/

/-- **How a mutation ends,** given how its body and the delivery of its events did. -/
def conclude {α : Type} (id : SafeInt) (body : Except Fault α) (delivery : Except Fault Unit) :
    Except Fault α :=
  match body, delivery with
  | .ok a, .ok () => .ok a
  | .ok _, .error log => .error log
  | .error e, .ok () => .error e
  | .error e, .error log => .error (.both id e log)

/-- **Runs a mutation** of the change at a place. -/
def mutate (supply : Supply) (react : Reactor) (i : Nat) (m : Mutation) (s : Session) :
    Done (Option Bool) :=
  match s.slots[i]? with
  | none => .fail s (.noSuchChange i)
  | some slot =>
    let id := slot.change.profile.id
    if slot.mutating then
      { session := s, journal := [.refused i m], result := .error (.reentrant id) }
    else
      match slot.change.apply m with
      | .error e =>
        { session := s
          journal := [.opened i m, .closed i (.error (.change e))]
          result := .error (.change e) }
      | .ok effect =>
        let told := (s.setSlot i ⟨effect.change, true⟩).tell react i effect.change.listener
          effect.notify
        let body := told.result.map fun _ => effect.answer
        let delivered := (told.session.release i).deliver supply react i effect.events
        { session := delivered.session
          journal := .opened i m :: told.journal ++ .closed i body :: delivered.journal
          result := conclude id body delivered.result }

/-- A mutation without an answer. -/
def mutateOnly (supply : Supply) (react : Reactor) (i : Nat) (m : Mutation) (s : Session) :
    Done Answer :=
  (s.mutate supply react i m).map fun _ => .nothing

/-- A mutation that answers with a flag. -/
def mutateFlag (supply : Supply) (react : Reactor) (i : Nat) (m : Mutation) (s : Session) :
    Done Answer :=
  (s.mutate supply react i m).map fun answer =>
    match answer with
    | some flag => .flag flag
    | none => .nothing

/-! ## Questions -/

/-- The answer to a question about a change. -/
def answer (c : Change) (notified? : Option String) : Query → Answer
  | .isEnabled app platformSdk => .flag (c.isEnabled app platformSdk)
  | .willBeEnabled package => .flag (c.willBeEnabled (package.resolve notified?))
  | .rawOverride package =>
    match (package.resolve notified?).bind c.maps.raw.get? with
    | some override => .override override
    | none => .nothing
  | .evaluatedOverride package =>
    match (package.resolve notified?).bind c.maps.evaluated.get? with
    | some flag => .flag flag
    | none => .nothing
  | .rawOverrides => .overrides c.maps.raw
  | .evaluatedOverrides => .flags c.maps.evaluated
  | .hasOverrides => .flag c.hasOverrides
  | .defaultValue => .flag c.profile.defaultValue
  | .profile => .profile c.profile
  | .text => .text c.text
  | .snapshot =>
    match c.snapshot? with
    | some snapshot => .snapshot snapshot
    | none => .nothing

/-! ## The store -/

/-- The changes at some places, each with its place. -/
def targets (s : Session) (places : List Nat) : List (Store.Target Nat) :=
  places.filterMap fun i => (s.change? i).map fun change => ⟨i, change⟩

/-- Clears the changes at some places. -/
def clearAll (supply : Supply) (react : Reactor) : List Nat → Session → Done Unit
  | [], s => .ok s ()
  | i :: rest, s =>
    (s.mutate supply react i .clearOverrides).next fun _ s => clearAll supply react rest s

/-- Loads snapshots into the changes at their places. -/
def loadAll (supply : Supply) (react : Reactor) : List (Nat × Snapshot) → Session → Done Unit
  | [], s => .ok s ()
  | (i, snapshot) :: rest, s =>
    (s.mutate supply react i (.loadOverrides snapshot)).next fun _ s =>
      loadAll supply react rest s

/-- **Replaces the overrides of some changes by those of the state file.** Every snapshot is
checked first; then every change is cleared, whether the file has its id or not; then the
snapshots are loaded in the order of the file. -/
def load (supply : Supply) (react : Reactor) (places : List Nat) (filename : String)
    (s : Session) : Done Store.Loaded :=
  match Store.read s.storage filename with
  | .error e => .fail s (.storage e)
  | .ok snapshots =>
    let targets := Store.targets (s.targets places)
    match Store.plan targets snapshots with
    | .error e => .fail s (.change e)
    | .ok plan =>
      (s.clearAll supply react (targets.map (·.key))).next fun _ s =>
        (s.loadAll supply react (plan.matched.map fun m => (m.1.key, m.2))).map fun _ =>
          plan.loaded

/-- Saves the overrides of the changes at some places. -/
def save (places : List Nat) (filename : String) (s : Session) : Done Nat :=
  let (storage, outcome) := Store.save s.storage filename (places.filterMap s.change?)
  { session := { s with storage }
    result :=
      match outcome with
      | .ok n => .ok n
      | .error e => .error (.storage e) }

/-! ## The storage -/

/-- The outcome of a call that changes the storage. -/
def stored (s : Session) (r : Storage × Except StorageError Unit) : Done Answer where
  session := { s with storage := r.1 }
  result :=
    match r.2 with
    | .ok () => .ok .nothing
    | .error e => .error (.storage e)

/-- The outcome of a call that only looks at the storage. -/
def found {α : Type} (s : Session) (answer : α → Answer) (r : Except StorageError α) :
    Done Answer where
  session := s
  result :=
    match r with
    | .ok a => .ok (answer a)
    | .error e => .error (.storage e)

def performStorage (s : Session) : StorageCommand → Done Answer
  | .readJson filename expected fallback =>
    s.found .json (s.storage.readJson expected.check filename fallback)
  | .writeJson filename value => s.stored (s.storage.writeJson filename value)
  | .appendLine filename line => s.stored (s.storage.appendLine filename line)
  | .plant filename content => s.stored (s.storage.plant filename content)
  | .rawText filename =>
    s.found (fun text => text.elim .nothing .text) (s.storage.rawText filename)
  | .lines filename => s.found .lines (s.storage.lines filename)
  | .listing => .ok s (s.storage.listing?.elim .nothing .paths)

/-! ## Commands -/

/-- **Runs one command** on behalf of a caller that was told of a package, if of any. -/
def performWith (supply : Supply) (react : Reactor) (notified? : Option String) (c : Command)
    (s : Session) : Done Answer :=
  match c with
  | .registerListener i listener => s.mutateOnly supply react i (.registerListener listener)
  | .setRawOverride i package draft verdict version =>
    match draft.build with
    | .error e => .fail s (.bounds e)
    | .ok override =>
      s.mutateOnly supply react i
        (.setRawOverride ((package.resolve notified?).getD "") override verdict version)
  | .recheck i package verdict version =>
    s.mutateFlag supply react i (.recheck (package.resolve notified?) verdict version)
  | .removeRawOverride i package verdict version =>
    match package.resolve notified? with
    | some name => s.mutateFlag supply react i (.removeRawOverride name verdict version)
    -- Without a package there is nothing to find, as for a recheck.
    | none => s.mutateFlag supply react i (.recheck none verdict version)
  | .clearOverrides i => s.mutateOnly supply react i .clearOverrides
  | .loadOverrides i snapshot => s.mutateOnly supply react i (.loadOverrides snapshot)
  | .checkOverrides i snapshot =>
    match s.change? i with
    | none => .fail s (.noSuchChange i)
    | some change =>
      match change.checkSnapshot snapshot with
      | .error e => .fail s (.change e)
      | .ok () => .ok s .nothing
  | .transfer i source =>
    match s.change? source with
    | none => .fail s (.noSuchChange source)
    | some change =>
      match change.snapshot? with
      | none => .ok s .nothing
      | some snapshot => s.mutateOnly supply react i (.loadOverrides snapshot)
  | .query i query =>
    match s.change? i with
    | none => .fail s (.noSuchChange i)
    | some change => .ok s (answer change notified? query)
  | .save places filename => (s.save places filename).map .count
  | .load places filename => (s.load supply react places filename).map .loaded
  | .readStore filename => s.found .snapshots (Store.read s.storage filename)
  | .storage command => s.performStorage command
  | .raise message => .fail s (.raised message)

/-- **Runs the commands of a reaction** in order. Each one's outcome is kept; one that fails and
is not guarded ends the reaction. -/
def runSteps (run : Command → Session → Done Answer) : Reaction → Session → Reacted
  | [], s => { session := s }
  | step :: rest, s =>
    let d := run step.command s
    let journal := .reached s.changes :: d.journal
    match d.result, step.guarded with
    | .error f, false =>
      { session := d.session, journal, attempts := [.error f], fault := some f }
    | result, _ =>
      let later := runSteps run rest d.session
      { later with journal := journal ++ later.journal, attempts := result :: later.attempts }

/-- Runs reactions that are nested no deeper than the bound. -/
def react (supply : Supply) : Nat → Reactor
  | 0, _, _, s => { session := s }
  | depth + 1, notified?, reaction, s =>
    runSteps (performWith supply (react supply depth) notified?) reaction s

/-- **Runs one command.** Callbacks nest no deeper than there are reactions left. -/
def perform (supply : Supply) (c : Command) (s : Session) : Done Answer :=
  s.performWith supply (react supply s.reactionsLeft) none c

/-- Hands events to the logger at a place, as one batch. -/
def record (supply : Supply) (i : Nat) (events : List Event) (s : Session) : Done Unit :=
  s.deliver supply (react supply s.reactionsLeft) i events

/-- **Runs commands one after the other,** whether they fail or not. -/
def performAll (supply : Supply) : List Command → Session → List (Done Answer)
  | [], _ => []
  | c :: rest, s =>
    let d := s.perform supply c
    d :: performAll supply rest d.session

end Session

end ChangeGate
