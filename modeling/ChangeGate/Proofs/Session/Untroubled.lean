import ChangeGate.Proofs.Change.Notice
import ChangeGate.Proofs.Session.Quiet
import ChangeGate.Proofs.Session.Stretch
/-!
# Runs that nothing disturbs

A run of mutations of one change is not disturbed if the change's sink takes what it is given, be it
into a file of any storage, and neither that sink nor a listener that may be told fails or calls
back (`Untroubled`). What the other changes have for sinks and listeners does not matter. The calls
then are answered as the mutations are by themselves, and the change is what `Change.run` makes
of it (`Untroubled.mutateEach`).
-/

namespace ChangeGate

/-- **A log that takes lines,** however many it has taken already. -/
def Storage.TakesLines (storage : Storage) (filename : String) : Prop :=
  ∀ (lines : List String) (line : String),
    ((lines.foldl (fun t l => (t.appendLine filename l).1) storage).appendLine filename line).2 =
      .ok ()

namespace Storage

variable {storage : Storage} {filename : String}

theorem TakesLines.next (h : storage.TakesLines filename) (line : String) :
    (storage.appendLine filename line).2 = .ok () ∧
      (storage.appendLine filename line).1.TakesLines filename :=
  ⟨h [] line, fun lines => h (line :: lines)⟩

/-- In memory there is always room. -/
theorem takesLines_memory (m : MemoryStorage) (filename : String) :
    (Storage.memory m).TakesLines filename := by
  intro lines line
  have hmemory : (lines.foldl (fun t l => (appendLine t filename l).1) (.memory m)).InMemory := by
    induction lines generalizing m with
    | nil => exact ⟨m, rfl⟩
    | cons first lines ih => exact ih (m.appendLine filename first)
  obtain ⟨m', hm'⟩ := hmemory
  rw [hm']
  rfl

end Storage

/-- **A logger whose sink neither fails nor calls back,** given the storage. -/
def Logger.Harmless (l : Logger) (storage : Storage) : Prop :=
  match l.sink with
  | none => True
  | some (.file filename) => storage.TakesLines filename
  | some (.script failOn reactions) => failOn = [] ∧ ∀ reaction ∈ reactions, reaction = []

/-- In memory a quiet logger is harmless. -/
theorem Logger.Quiet.harmless {l : Logger} (h : l.Quiet) {storage : Storage}
    (hmemory : storage.InMemory) : l.Harmless storage := by
  obtain ⟨sink, clock⟩ := l
  obtain ⟨m, rfl⟩ := hmemory
  match sink with
  | none => trivial
  | some (.file filename) => exact Storage.takesLines_memory m filename
  | some (.script _ _) => exact h

namespace Session

/-- **Nothing disturbs the mutations of a change** if it may tell the listeners `heard` only. -/
structure Untroubled (s : Session) (i : Nat) (heard : Nat → Prop) : Prop where
  logger : ∀ logger, s.loggers[i]? = some logger → logger.Harmless s.storage
  listener : ∀ l lis, heard l → s.listeners[l]? = some lis →
    ∀ reaction ∈ lis.reactions, reaction = []

/-- A run of callbacks that does not fail, and that leaves the changes alone. -/
structure Passed (s : Session) (i : Nat) (heard : Nat → Prop) (d : Done Unit) : Prop where
  result : d.result = .ok ()
  slots : d.session.slots = s.slots
  untroubled : d.session.Untroubled i heard

namespace Untroubled

variable (supply : Supply) {react : Reactor} {s : Session} {i : Nat} {heard : Nat → Prop}

theorem passed (h : s.Untroubled i heard) : Passed s i heard (.ok s ()) :=
  ⟨rfl, rfl, h⟩

/-- Another sink in the place of one that is there. -/
theorem setLogger (h : s.Untroubled i heard) {old new : Logger} (hold : s.loggers[i]? = some old)
    (hnew : new.Harmless s.storage) :
    Untroubled { s with loggers := s.loggers.set i new } i heard where
  listener := h.listener
  logger l hl := by
    rw [getElem?_put_self hold] at hl
    cases hl
    exact hnew

theorem writeEvent (h : s.Untroubled i heard) {logger : Logger} {filename : String}
    (hlogger : s.loggers[i]? = some logger) (hsink : logger.sink = some (.file filename))
    (e : StampedEvent) : Passed s i heard (s.writeEvent supply i filename e) := by
  have htakes := h.logger logger hlogger
  unfold Logger.Harmless at htakes
  rw [hsink] at htakes
  unfold Session.writeEvent
  dsimp only
  generalize e.line _ = line
  obtain ⟨htaken, hnext⟩ := Storage.TakesLines.next htakes line
  rw [htaken]
  refine ⟨rfl, rfl, fun l hl => ?_, h.listener⟩
  cases hlogger.symm.trans hl
  unfold Logger.Harmless
  rw [hsink]
  exact hnext

theorem callSink (hreact : react.Idle) (h : s.Untroubled i heard) {logger : Logger}
    (hlogger : s.loggers[i]? = some logger) {reactions : List Reaction}
    (hreactions : ∀ reaction ∈ reactions, reaction = []) (e : StampedEvent) :
    Passed s i heard (s.callSink react i logger [] reactions e) := by
  have hleft : Logger.Harmless { logger with sink := some (.script [] reactions.tail) } s.storage :=
    ⟨rfl, fun reaction hmem => hreactions reaction (List.mem_of_mem_tail hmem)⟩
  have hused := h.setLogger hlogger hleft
  unfold Session.callSink
  dsimp only
  rw [if_neg (by simp)]
  cases reactions with
  | nil => exact ⟨rfl, rfl, hused⟩
  | cons reaction rest =>
    dsimp only
    rw [hreactions reaction List.mem_cons_self, hreact]
    exact ⟨rfl, rfl, hused⟩

theorem deliverOne (hreact : react.Idle) (h : s.Untroubled i heard) (e : Event) :
    Passed s i heard (s.deliverOne supply react i e) := by
  unfold Session.deliverOne
  split
  · exact h.passed
  · rename_i logger hlogger
    split
    · exact h.passed
    · rename_i sink hsink
      have hclock : (s.readClock supply logger.clock).1.Untroubled i heard ∧
          (s.readClock supply logger.clock).1.slots = s.slots ∧
          (s.readClock supply logger.clock).1.loggers[i]? = some logger := by
        cases logger.clock <;> exact ⟨⟨h.logger, h.listener⟩, rfl, hlogger⟩
      obtain ⟨hread, hslots, hlogger'⟩ := hclock
      dsimp only
      split
      · obtain ⟨hresult, hslots', hwritten⟩ := hread.writeEvent supply hlogger' hsink
          ⟨e, (s.readClock supply logger.clock).2⟩
        exact ⟨hresult, hslots'.trans hslots, hwritten⟩
      · have hharmless := h.logger logger hlogger
        unfold Logger.Harmless at hharmless
        rw [hsink] at hharmless
        obtain ⟨rfl, hreactions⟩ := hharmless
        obtain ⟨hresult, hslots', hcalled⟩ := hread.callSink hreact hlogger' hreactions
          ⟨e, (s.readClock supply logger.clock).2⟩
        exact ⟨hresult, hslots'.trans hslots, hcalled⟩

theorem deliver (hreact : react.Idle) (h : s.Untroubled i heard) (events : List Event) :
    Passed s i heard (s.deliver supply react i events) := by
  induction events generalizing s with
  | nil => exact h.passed
  | cons e rest ih =>
    obtain ⟨hresult, hslots, hfirst⟩ := h.deliverOne supply hreact e
    obtain ⟨hresult', hslots', hrest⟩ := ih hfirst
    rw [Session.deliver, Done.next, hresult]
    exact ⟨hresult', hslots'.trans hslots, hrest⟩

/-- **A listener that does nothing** is told in vain. -/
theorem tell (hreact : react.Idle) (h : s.Untroubled i heard) {listener : Option Nat}
    (hheard : ∀ l, listener = some l → heard l) (package : Option String) :
    Passed s i heard (s.tell react i listener package) := by
  unfold Session.tell
  split
  · rename_i l package
    unfold callListener
    split
    · exact h.passed
    · rename_i lis hlis
      have hidle := h.listener l lis (hheard l rfl) hlis
      split
      · exact ⟨rfl, rfl, h⟩
      · rename_i reaction later hreactions
        rw [hidle reaction (by simp [hreactions]), hreact]
        refine ⟨rfl, rfl, h.logger, fun n told hn htold => ?_⟩
        rw [getElem?_put hlis] at htold
        split at htold
        · cases htold
          exact fun reaction hmem => hidle reaction (hreactions ▸ List.mem_cons_of_mem _ hmem)
        · exact h.listener n told hn htold
  · exact h.passed

/-- **A mutation that nothing disturbs** is what it is of the change alone. -/
theorem mutate (hreact : react.Idle) (h : s.Untroubled i heard) {c : Change}
    (hslot : s.slots[i]? = some ⟨c, false⟩) {m : Mutation}
    (hheard : ∀ l, (c.after m).listener = some l → heard l) :
    (s.mutate supply react i m).result = ownOutcome (c.apply m) ∧
      (s.mutate supply react i m).session.slots = s.slots.set i ⟨c.after m, false⟩ ∧
      (s.mutate supply react i m).session.Untroubled i heard := by
  cases happly : c.apply m with
  | error error =>
    rw [mutate_of_error hslot happly, Change.after_of_error happly]
    exact ⟨rfl, (put_self hslot).symm, h⟩
  | ok e =>
    rw [Change.after_of_ok happly] at hheard ⊢
    rw [mutate_of_ok hslot happly]
    have hmarked : (s.setSlot i ⟨e.change, true⟩).Untroubled i heard := ⟨h.logger, h.listener⟩
    obtain ⟨htold, hslots, hafter⟩ := hmarked.tell hreact hheard e.notify
    unfold announce
    generalize (s.setSlot i ⟨e.change, true⟩).tell react i e.change.listener e.notify = told at *
    have hreleased : (told.session.release i).Untroubled i heard :=
      ⟨hafter.logger, hafter.listener⟩
    obtain ⟨hresult, hslots', hdelivered⟩ := hreleased.deliver supply hreact e.events
    refine ⟨?_, ?_, hdelivered⟩
    · dsimp only
      rw [htold, hresult]
      rfl
    · dsimp only
      rw [hslots', ← release_setSlot s i e.change, release, release, hslots]

end Untroubled

/-! ## One by one -/

/-- **The session in which callbacks do nothing:** the listeners react to no call, and there are
no sinks. -/
def muted (s : Session) : Session :=
  { s with
    listeners := s.listeners.map fun l => { l with reactions := [] }
    loggers := s.loggers.map fun l => { l with sink := none }
    storage := .memory {} }

theorem quiet_muted (s : Session) (places : List Nat) : s.muted.Quiet places := by
  refine ⟨⟨_, rfl⟩, fun i _ logger hlogger => ?_⟩
  obtain ⟨l, -, rfl⟩ := List.mem_map.1 (List.mem_of_getElem? hlogger)
  exact True.intro

theorem listenersIdle_muted (s : Session) : s.muted.ListenersIdle := by
  intro l hl reaction hreaction
  obtain ⟨l', -, rfl⟩ := List.mem_map.1 hl
  cases hreaction

/-- **Calls mutations of a change one after the other,** and gives how each of them ended. -/
def mutateEach (supply : Supply) (i : Nat) :
    List Mutation → Session → List (Except Fault (Option Bool)) × Session
  | [], s => ([], s)
  | m :: ms, s =>
    let d := s.mutate supply (Session.react supply s.reactionsLeft) i m
    let rest := mutateEach supply i ms d.session
    (d.result :: rest.1, rest.2)

/-- **Calls that are what they are of the change alone:** it becomes what `Change.run` makes of it,
and each call ends as its mutation does by itself on what the ones before it made. -/
structure OneByOne (supply : Supply) (s : Session) (i : Nat) (c : Change) (ms : List Mutation) :
    Prop where
  change : (s.mutateEach supply i ms).2.change? i = some (c.run ms)
  outcome : ∀ before m later, ms = before ++ m :: later →
    (s.mutateEach supply i ms).1[before.length]? = some (ownOutcome ((c.run before).apply m))

variable {s : Session} {i : Nat} {c : Change}

theorem ownOutcome_eq (c : Change) (m : Mutation) :
    ownOutcome (c.apply m) = (c.reply m).mapError .change := by
  unfold Change.reply
  cases c.apply m <;> rfl

/-- **Calls that nothing disturbs** are answered as the mutations are by themselves, and do to the
change what `Change.run` says. -/
theorem Untroubled.mutateEach (supply : Supply) {heard : Nat → Prop} (h : s.Untroubled i heard)
    (hslot : s.slots[i]? = some ⟨c, false⟩) (ms : List Mutation)
    (hheard : ∀ l, c.listener = some l ∨ .registerListener l ∈ ms → heard l) :
    (s.mutateEach supply i ms).1 = (c.replies ms).map (·.mapError .change) ∧
      (s.mutateEach supply i ms).2.slots = s.slots.set i ⟨c.run ms, false⟩ := by
  induction ms generalizing s c with
  | nil => exact ⟨rfl, (put_self hslot).symm⟩
  | cons m ms ih =>
    have hafter : ∀ l, (c.after m).listener = some l → heard l := by
      intro l hl
      refine hheard l ((Change.listener_of_after hl).imp id ?_)
      rintro rfl
      exact List.mem_cons_self
    obtain ⟨hresult, hslots, hnext⟩ := h.mutate supply (react_idle supply s.reactionsLeft) hslot
      hafter
    obtain ⟨houtcomes, hrest⟩ := ih hnext (by rw [hslots, getElem?_put_self hslot]) fun l hl =>
      hl.elim (hafter l) fun hmem => hheard l (Or.inr (List.mem_cons_of_mem _ hmem))
    refine ⟨?_, ?_⟩
    · change (s.mutate supply _ i m).result :: _ = _
      rw [houtcomes, hresult, ownOutcome_eq]
      rfl
    · change (Session.mutateEach supply i ms _).2.slots = _
      rw [hrest, hslots, List.set_set, Change.run_cons]

theorem Quiet.untroubled (hquiet : s.Quiet [i]) (hidle : s.ListenersIdle) :
    s.Untroubled i fun _ => True where
  logger logger hlogger :=
    (hquiet.loggers i (List.mem_singleton_self i) logger hlogger).harmless hquiet.memory
  listener _ lis _ hlis := hidle lis (List.mem_of_getElem? hlis)

/-- **Where callbacks do nothing, calls do to a change what the mutations do.** -/
theorem Quiet.oneByOne (supply : Supply) (hquiet : s.Quiet [i]) (hidle : s.ListenersIdle)
    (hslot : s.slots[i]? = some ⟨c, false⟩) (ms : List Mutation) :
    OneByOne supply s i c ms := by
  obtain ⟨houtcomes, hslots⟩ :=
    (hquiet.untroubled hidle).mutateEach supply hslot ms fun _ _ => trivial
  refine ⟨by rw [change?, hslots, getElem?_put_self hslot]; rfl, ?_⟩
  rintro before m later rfl
  rw [houtcomes, Change.replies_append, ownOutcome_eq]
  simp [Change.replies]

end Session

end ChangeGate
