import ChangeGate.Session.Run
/-!
# Stretches of a run

A stretch of a run begins with a session, leaves one, and has a journal of what happened in
between. What holds of all stretches has to be proved of mutations only (`Composes`): any
other command leaves the changes and the callbacks alone or calls mutations one after the other,
and a reaction is commands one after the other.

In the proof for a mutation the same may be used of the reactions that it sets off, for they nest
less deep; `Composes.react` is the induction behind this.
-/

namespace ChangeGate

/-- Whether a storage is in memory. -/
def Storage.InMemory (s : Storage) : Prop :=
  ∃ m, s = .memory m

/-- The change at a place is in the middle of a mutation. -/
def Session.Marked (s : Session) (i : Nat) (c : Change) : Prop :=
  s.slots[i]? = some ⟨c, true⟩

/-- A run that is a stretch of the kind `R`. -/
def Done.Within {α : Type} (R : Session → List Happening → Session → Prop) (s : Session)
    (d : Done α) : Prop :=
  R s d.journal d.session

/-- A reactor whose reactions are stretches of the kind `R`. -/
def Reactor.Within (react : Reactor) (R : Session → List Happening → Session → Prop) : Prop :=
  ∀ notified? reaction s,
    R s (react notified? reaction s).journal (react notified? reaction s).session

/-- **Stretches that follow each other make up a stretch.** -/
structure Chains (R : Session → List Happening → Session → Prop) : Prop where
  still : ∀ s : Session, R s [] s
  trans : ∀ {s journal s' later s''}, R s journal s' → R s' later s'' → R s (journal ++ later) s''

/-- **A kind of stretches that only the steps of a delivery have to be checked for,** where an
event of the change at `i` is delivered: the clock is read, and the event is written or handed to
the sink, which uses up a reaction. -/
structure Delivers (supply : Supply) (R : Session → List Happening → Session → Prop) (i : Nat) :
    Prop extends Chains R where
  written : ∀ (s : Session) logger filename e storage, s.loggers[i]? = some logger →
    logger.sink = some (.file filename) → (s.storage.InMemory → storage.InMemory) →
    R s [.written i ⟨e, (s.readClock supply logger.clock).2⟩]
      { (s.readClock supply logger.clock).1 with storage := storage, logged := s.logged + 1 }
  delivered : ∀ (s : Session) logger failOn reactions e reaction, s.loggers[i]? = some logger →
    logger.sink = some (.script failOn reactions) →
    R s [.delivered i ⟨e, (s.readClock supply logger.clock).2⟩ reaction]
      { (s.readClock supply logger.clock).1 with
        loggers := s.loggers.set i { logger with sink := some (.script failOn reactions.tail) } }

/-- **A kind of stretches that only single happenings have to be checked for,** because it does not
depend on the changes. -/
structure Steps (supply : Supply) (R : Session → List Happening → Session → Prop) : Prop
    extends Chains R where
  stored : ∀ (s : Session) storage, (s.storage.InMemory → storage.InMemory) →
    R s [] { s with storage }
  reached : ∀ s : Session, R s [.reached s.changes] s
  refused : ∀ (s : Session) i m, R s [.refused i m] s
  opened : ∀ (s : Session) i m slots, R s [.opened i m] { s with slots }
  closed : ∀ (s : Session) i outcome slots, R s [.closed i outcome] { s with slots }
  notified : ∀ (s : Session) i name package reaction listeners,
    R s [.notified i name package reaction] { s with listeners }
  delivers : ∀ i, Delivers supply R i

/-- **A kind of stretches that only mutations have to be checked for.** -/
structure Composes (supply : Supply) (R : Session → List Happening → Session → Prop) : Prop
    extends Chains R where
  stored : ∀ (s : Session) storage, (s.storage.InMemory → storage.InMemory) →
    R s [] { s with storage }
  reached : ∀ s : Session, R s [.reached s.changes] s
  mutate : ∀ depth i m (s : Session), (Session.react supply depth).Within R →
    (s.mutate supply (Session.react supply depth) i m).Within R s

/-! ## Mutations case by case -/

namespace Session

/-- **Tells the listener of what a mutation has done.** The change is marked meanwhile. -/
def announce (react : Reactor) (i : Nat) (e : Effect) (s : Session) : Done Unit :=
  (s.setSlot i ⟨e.change, true⟩).tell react i e.change.listener e.notify

variable {supply : Supply} {react : Reactor} {s : Session} {i : Nat} {c : Change} {m : Mutation}
  {e : Effect}

theorem mutate_of_none (hslot : s.slots[i]? = none) :
    s.mutate supply react i m = .fail s (.noSuchChange i) := by
  rw [mutate, hslot]

/-- **A call that finds a mutation of its change running** is refused, and that is all. -/
theorem mutate_of_mutating (hslot : s.slots[i]? = some ⟨c, true⟩) (m : Mutation) :
    s.mutate supply react i m =
      { session := s, journal := [.refused i m], result := .error (.reentrant c.profile.id) } := by
  rw [mutate, hslot]
  rfl

/-- **A mutation that its change refuses** is let in, and that is all. -/
theorem mutate_of_error {error : ChangeError} (hslot : s.slots[i]? = some ⟨c, false⟩)
    (happly : c.apply m = .error error) :
    s.mutate supply react i m = {
      session := s
      journal := [.opened i m, .closed i (.error (.change error))]
      result := .error (.change error) } := by
  unfold mutate
  rw [hslot]
  dsimp only
  rw [if_neg (by simp), happly]

/-- **A mutation that its change takes:** the listener is told, and then the events go out. -/
theorem mutate_of_ok (hslot : s.slots[i]? = some ⟨c, false⟩) (happly : c.apply m = .ok e) :
    s.mutate supply react i m =
      let told := s.announce react i e
      let body := told.result.map fun _ => e.answer
      let delivered := (told.session.release i).deliver supply react i e.events
      { session := delivered.session
        journal := .opened i m :: told.journal ++ .closed i body :: delivered.journal
        result := conclude c.profile.id body delivered.result } := by
  unfold mutate
  rw [hslot]
  dsimp only
  rw [if_neg (by simp), happly]
  rfl

end Session

/-! ## The storage -/

namespace Storage

variable {storage : Storage}

theorem appendLine_inMemory (h : storage.InMemory) (filename line : String) :
    (storage.appendLine filename line).1.InMemory := by
  obtain ⟨m, rfl⟩ := h
  exact ⟨_, rfl⟩

theorem writeJson_inMemory (h : storage.InMemory) (filename : String) (v : Json) :
    (storage.writeJson filename v).1.InMemory := by
  obtain ⟨m, rfl⟩ := h
  exact ⟨_, rfl⟩

theorem plant_inMemory (h : storage.InMemory) (filename : String) (content : Content) :
    (storage.plant filename content).1.InMemory := by
  obtain ⟨m, rfl⟩ := h
  cases content <;> exact ⟨_, rfl⟩

theorem save_inMemory (h : storage.InMemory) (filename : String) (changes : List Change) :
    (Store.save storage filename changes).1.InMemory := by
  obtain ⟨m, rfl⟩ := h
  exact ⟨_, rfl⟩

end Storage

variable {R : Session → List Happening → Session → Prop} {α β : Type} {supply : Supply}

theorem Chains.next (h : Chains R) {s : Session} {d : Done α} {f : α → Session → Done β}
    (hd : d.Within R s) (hf : ∀ a t, (f a t).Within R t) : (d.next f).Within R s := by
  unfold Done.next
  split
  · exact hd
  · exact h.trans hd (hf _ _)

/-! ## Callbacks -/

/-- **The listener of a change is told.** -/
theorem Chains.tell (h : Chains R) {react : Reactor} {i : Nat}
    (hnotified : ∀ (s : Session) name package reaction listeners,
      R s [.notified i name package reaction] { s with listeners })
    (hreact : react.Within R) (listener : Option Nat) (package : Option String) (s : Session) :
    (s.tell react i listener package).Within R s := by
  unfold Session.tell
  split
  · unfold Session.callListener
    split
    · exact h.still s
    · split
      · exact hnotified s _ _ none s.listeners
      · exact h.trans (hnotified s _ _ _ _) (hreact _ _ _)
  · exact h.still s

namespace Delivers

variable {react : Reactor} {i : Nat}

theorem deliverOne (h : Delivers supply R i) (hreact : react.Within R) (e : Event) (s : Session) :
    (s.deliverOne supply react i e).Within R s := by
  unfold Session.deliverOne
  split
  · exact h.still s
  · rename_i logger hlogger
    split
    · exact h.still s
    · rename_i sink hsink
      -- a reading of the clock touches neither the loggers nor what is stored
      have hclock : (s.readClock supply logger.clock).1.loggers = s.loggers ∧
          (s.readClock supply logger.clock).1.storage = s.storage ∧
          (s.readClock supply logger.clock).1.logged = s.logged := by
        cases logger.clock <;> exact ⟨rfl, rfl, rfl⟩
      obtain ⟨hloggers, hstorage, hlogged⟩ := hclock
      dsimp only
      split
      · rename_i filename
        unfold Session.writeEvent
        dsimp only
        rw [hstorage, hlogged]
        exact h.written s logger filename e _ hlogger hsink fun hm =>
          Storage.appendLine_inMemory hm _ _
      · rename_i failOn reactions
        have hdelivered := fun reaction => h.delivered s logger failOn reactions e reaction hlogger
          hsink
        unfold Session.callSink
        dsimp only
        rw [hloggers]
        split
        · exact hdelivered none
        · split
          · exact hdelivered none
          · exact h.trans (hdelivered _) (hreact _ _ _)

/-- **Events are delivered** one after the other. -/
theorem deliver (h : Delivers supply R i) (hreact : react.Within R) (events : List Event)
    (s : Session) : (s.deliver supply react i events).Within R s := by
  induction events generalizing s with
  | nil => exact h.still s
  | cons e rest ih => exact h.next (h.deliverOne hreact e s) fun _ t => ih t

end Delivers

/-- **Mutations consist of such happenings.** -/
theorem Steps.composes (h : Steps supply R) : Composes supply R where
  toChains := h.toChains
  stored := h.stored
  reached := h.reached
  mutate depth i m s hreact := by
    cases hslot : s.slots[i]? with
    | none => rw [Session.mutate_of_none hslot]; exact h.still s
    | some slot =>
      obtain ⟨c, _ | _⟩ := slot
      · cases happly : c.apply m with
        | error error =>
          rw [Session.mutate_of_error hslot happly]
          exact h.trans (h.opened s i m s.slots) (h.closed s i _ s.slots)
        | ok e =>
          rw [Session.mutate_of_ok hslot happly]
          have htold := h.tell (fun t name => h.notified t i name) hreact e.change.listener e.notify
            (s.setSlot i ⟨e.change, true⟩)
          exact h.trans (h.trans (h.opened s i m _) htold)
            (h.trans (h.closed _ i _ _) ((h.delivers i).deliver hreact e.events _))
      · rw [Session.mutate_of_mutating hslot]
        exact h.refused s i m

namespace Composes

variable {s : Session} {depth : Nat}

/-! ## Commands -/

section Commands

variable (h : Composes supply R) (hreact : (Session.react supply depth).Within R)

include h hreact

theorem clearAll (places : List Nat) (s : Session) :
    (s.clearAll supply (Session.react supply depth) places).Within R s := by
  induction places generalizing s with
  | nil => exact h.still s
  | cons i rest ih => exact h.next (h.mutate depth i _ s hreact) fun _ t => ih t

theorem loadAll (plan : List (Nat × Snapshot)) (s : Session) :
    (s.loadAll supply (Session.react supply depth) plan).Within R s := by
  induction plan generalizing s with
  | nil => exact h.still s
  | cons head rest ih => exact h.next (h.mutate depth head.1 _ s hreact) fun _ t => ih t

theorem load (places : List Nat) (filename : String) (s : Session) :
    (s.load supply (Session.react supply depth) places filename).Within R s := by
  unfold Session.load
  split
  · exact h.still s
  · dsimp only
    split
    · exact h.still s
    · exact h.next (h.clearAll hreact _ s) fun _ t => h.loadAll hreact _ t

omit hreact in
theorem performStorage (command : StorageCommand) (s : Session) :
    (s.performStorage command).Within R s := by
  cases command with
  | writeJson filename value =>
    exact h.stored s _ fun hm => Storage.writeJson_inMemory hm filename value
  | appendLine filename line =>
    exact h.stored s _ fun hm => Storage.appendLine_inMemory hm filename line
  | plant filename content =>
    exact h.stored s _ fun hm => Storage.plant_inMemory hm filename content
  | readJson | rawText | lines | listing => exact h.still s

/-- **A command,** on behalf of whatever caller. -/
theorem performWith (notified? : Option String) (c : Command) (s : Session) :
    (s.performWith supply (Session.react supply depth) notified? c).Within R s := by
  have hmutate : ∀ i m, (s.mutate supply (Session.react supply depth) i m).Within R s :=
    fun i m => h.mutate depth i m s hreact
  unfold Session.performWith
  cases c with
  | registerListener i listener => exact hmutate i _
  | setRawOverride i package draft verdict version =>
    dsimp only
    split
    · exact h.still s
    · exact hmutate i _
  | recheck i package verdict version => exact hmutate i _
  | removeRawOverride i package verdict version =>
    dsimp only
    split <;> exact hmutate i _
  | clearOverrides i => exact hmutate i _
  | loadOverrides i snapshot => exact hmutate i _
  | checkOverrides i snapshot =>
    dsimp only
    split
    · exact h.still s
    · split <;> exact h.still s
  | transfer i source =>
    dsimp only
    split
    · exact h.still s
    · split
      · exact h.still s
      · exact hmutate i _
  | query i query =>
    dsimp only
    split <;> exact h.still s
  | save places filename => exact h.stored s _ fun hm => Storage.save_inMemory hm filename _
  | load places filename => exact h.load hreact places filename s
  | readStore filename => exact h.still s
  | storage command => exact h.performStorage command s
  | raise message => exact h.still s

end Commands

/-! ## Reactions -/

theorem runSteps (h : Composes supply R) {run : Command → Session → Done Answer}
    (hrun : ∀ c t, (run c t).Within R t) (reaction : Reaction) (s : Session) :
    R s (Session.runSteps run reaction s).journal (Session.runSteps run reaction s).session := by
  induction reaction generalizing s with
  | nil => exact h.still s
  | cons step rest ih =>
    have hstep : R s (.reached s.changes :: (run step.command s).journal)
        (run step.command s).session := h.trans (h.reached s) (hrun step.command s)
    unfold Session.runSteps
    dsimp only
    split
    · exact hstep
    · exact h.trans hstep (ih _)

/-- **Reactions are stretches of the kind,** however deep they nest. -/
theorem react (h : Composes supply R) (depth : Nat) : (Session.react supply depth).Within R := by
  induction depth with
  | zero => exact fun _ _ s => h.still s
  | succ depth ih =>
    exact fun notified? reaction s =>
      h.runSteps (fun c t => h.performWith ih notified? c t) reaction s

/-- **And so is every command.** -/
theorem perform (h : Composes supply R) (c : Command) (s : Session) :
    (s.perform supply c).Within R s :=
  h.performWith (h.react _) none c s

end Composes

end ChangeGate
