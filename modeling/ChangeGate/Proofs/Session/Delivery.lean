import ChangeGate.Proofs.Session.Log
import ChangeGate.Proofs.Session.Spared
import ChangeGate.Proofs.Session.Stamps
/-!
# Delivery of events and attribution of errors

Listeners and sinks may fail, in any combination, as long as the sinks do not call back. What goes
out for a mutation are its own events in their order, up to the first one that the sink fails on,
and it goes out once the body has ended. What is dropped then is dropped for good: in the journal
of a run each event that goes out has its own mutation to come from (`Attributed`).

How a mutation ends tells which of the two has failed, and both failures are kept if both did.
-/

namespace ChangeGate

/-- **Each event that goes out has its own mutation to come from.** That mutation's body was the
last to end, nothing but its earlier events has gone out since, and the event is the next one. -/
structure Attributed (s : Session) (journal : List Happening) : Prop where
  origin : ∀ before h later i e, journal = before ++ h :: later → h.logged? = some (i, e) →
    ∃ c first m during outcome block sent rest, s.change? i = some c ∧
      before = first ++ .opened i m :: (during ++ .closed i outcome :: block) ∧
      (∀ outcome', .closed i outcome' ∉ during) ∧ (∀ h ∈ block, h.Logs) ∧
      logOf block = sent.map (i, ·) ∧
      (c.run (openedOf i first)).queued m = sent ++ e.event :: rest

namespace Session

/-- The session in which the events of a mutation go out: its listener has returned, and the mark
is gone. -/
def afterBody (supply : Supply) (depth i : Nat) (c : Change) (m : Mutation) (s : Session) :
    Session :=
  match c.apply m with
  | .error _ => s
  | .ok e => (s.announce (react supply depth) i e).session.release i

/-- **A mutation that is let in does what it does alone.** Whatever its listener runs meanwhile, it
acts on its change as `Change.apply` says, and what it has queued is delivered when its body has
ended: `told` is what happened while the listener was called, and `body` how the body ended. -/
structure Upheld (supply : Supply) (depth i : Nat) (c : Change) (m : Mutation) (s : Session)
    (d : Done (Option Bool)) (told : List Happening) (body : Except Fault (Option Bool)) :
    Prop where
  journal : d.journal = .opened i m :: told ++ .closed i body ::
    ((s.afterBody supply depth i c m).deliver supply (react supply depth) i (c.queued m)).journal
  session : d.session =
    ((s.afterBody supply depth i c m).deliver supply (react supply depth) i (c.queued m)).session
  result : d.result = conclude c.profile.id body
    ((s.afterBody supply depth i c m).deliver supply (react supply depth) i (c.queued m)).result
  meanwhile : loggedOf i told = []
  own : body = ownOutcome (c.apply m) ∨
    ∃ f e, body = .error f ∧ ListenerFailed i told f ∧ c.apply m = .ok e
  ended : (s.afterBody supply depth i c m).slots[i]? = some ⟨c.after m, false⟩
  logger : (s.afterBody supply depth i c m).loggers[i]? = s.loggers[i]?

/-- **How the delivery ended** if the sink does not call back: it has the journal `block` and the
result `log`, and of what was queued `sent` went out and `dropped` did not. -/
structure Delivered (supply : Supply) (depth i : Nat) (c : Change) (m : Mutation) (s : Session)
    (d : Done (Option Bool)) (told block : List Happening) (body : Except Fault (Option Bool))
    (log : Except Fault Unit) (sent dropped : List Event) : Prop
    extends Upheld supply depth i c m s d told body where
  split : d.journal = .opened i m :: told ++ .closed i body :: block
  queued : c.queued m = sent ++ dropped
  logs : ∀ h ∈ block, h.Logs
  batch : Batch supply depth i (s.afterBody supply depth i c m) sent dropped
    { session := d.session, journal := block, result := log }
  value : ∀ a, body = .ok a → log = .ok () → d.result = .ok a
  sinkFault : ∀ a f, body = .ok a → log = .error f → d.result = .error f
  ownFault : ∀ f, body = .error f → log = .ok () → d.result = .error f
  bothFaults : ∀ f g, body = .error f → log = .error g →
    d.result = .error (.both c.profile.id f g) ∧ ListenerFailed i told f

/-- **How mutations end** in a session where sinks do not call back. -/
structure Delivering (supply : Supply) (s : Session) : Prop where
  delivered : ∀ depth i c m logger, s.slots[i]? = some ⟨c, false⟩ →
    s.loggers[i]? = some logger → logger.sink.isSome = true → logger.Silent →
    ∃ told block body log sent dropped, Delivered supply depth i c m s
      (s.mutate supply (react supply depth) i m) told block body log sent dropped
  refused : ∀ depth i c m, s.Marked i c →
    s.mutate supply (react supply depth) i m =
      { session := s, journal := [.refused i m], result := .error (.reentrant c.profile.id) }

variable {supply : Supply} {s s' : Session} {journal : List Happening} {i : Nat} {c : Change}

theorem loggedOf_of_spares (hspares : ∀ h ∈ journal, h.Spares i c) : loggedOf i journal = [] := by
  refine List.filterMap_eq_nil_iff.2 fun entry hentry => ?_
  obtain ⟨⟨j, e⟩, hstamped, rfl⟩ := List.mem_map.1 hentry
  obtain ⟨h, hmem, hlogged⟩ := List.mem_filterMap.1 hstamped
  have hji : j ≠ i := by
    have hone := hspares h hmem
    cases h with
    | delivered => cases hlogged; exact hone
    | written => cases hlogged; exact hone
    | _ => cases hlogged
  simp [hji]

namespace Told

variable {listener : Option Nat} {package? : Option String} {d : Done Unit}

/-- Nothing of the change goes out until its listener has returned. -/
theorem meanwhile (h : Told i c s listener package? d) : loggedOf i d.journal = [] := by
  rcases h.journal with ⟨hjournal, -⟩ | ⟨name, package, reaction, later, hjournal, -, hspares, -⟩
  · rw [hjournal]
    rfl
  · rw [hjournal]
    change loggedOf i later = []
    exact loggedOf_of_spares hspares

/-- If the call fails, so has the listener. -/
theorem failed (h : Told i c s listener package? d) {f : Fault} (hf : d.result = .error f) :
    ListenerFailed i d.journal f := by
  rcases h.journal with ⟨-, hok, -⟩ | ⟨name, package, reaction, later, hjournal, -, -, hfault⟩
  · rw [hok] at hf
    cases hf
  · exact ⟨name, package, reaction, by rw [hjournal]; exact List.mem_cons_self, hfault f hf⟩

end Told

/-- **Every mutation that is let in is upheld,** whatever the listeners and the sinks do. -/
theorem upheld (supply : Supply) (depth : Nat) (m : Mutation)
    (hslot : s.slots[i]? = some ⟨c, false⟩) :
    ∃ told body, Upheld supply depth i c m s (s.mutate supply (react supply depth) i m) told
      body := by
  cases happly : c.apply m with
  | error error =>
    have hended : s.afterBody supply depth i c m = s := by rw [afterBody, happly]
    have hqueued := Change.queued_of_error happly
    rw [mutate_of_error hslot happly]
    exact ⟨[], .error (.change error), {
      journal := by rw [hqueued]; rfl
      session := by rw [hqueued, hended]; rfl
      result := by rw [hqueued]; rfl
      meanwhile := rfl
      own := Or.inl (by rw [happly]; rfl)
      ended := by rw [hended, Change.after_of_error happly]; exact hslot
      logger := by rw [hended] }⟩
  | ok e =>
    have hended : s.afterBody supply depth i c m =
        (s.announce (react supply depth) i e).session.release i := by rw [afterBody, happly]
    have hqueued := Change.queued_of_ok happly
    have htold := announced supply depth hslot e
    rw [mutate_of_ok hslot happly]
    generalize s.announce (react supply depth) i e = told at htold hended
    have hmarked : told.session.slots[i]? = some ⟨e.change, true⟩ := htold.marked
    refine ⟨told.journal, told.result.map fun _ => e.answer, {
      journal := by rw [hqueued, hended]
      session := by rw [hqueued, hended]
      result := by rw [hqueued, hended]
      meanwhile := htold.meanwhile
      own := ?_
      ended := by
        rw [hended, Change.after_of_ok happly, release, List.getElem?_modify, hmarked]
        simp
      logger := by rw [hended]; exact htold.logger }⟩
    cases hresult : told.result with
    | ok => exact Or.inl (by rw [happly]; rfl)
    | error f => exact Or.inr ⟨f, e, rfl, htold.failed hresult, happly⟩

/-- **A mutation with a sink that does not call back.** -/
theorem delivering (supply : Supply) (s : Session) : Delivering supply s where
  delivered depth i c m logger hslot hlogger hsink hsilent := by
    obtain ⟨told, body, h⟩ := upheld supply depth m hslot
    have hlogger' := h.logger.trans hlogger
    obtain ⟨sent, dropped, hqueued, hbatch⟩ := batch_of_silent supply depth hlogger' hsink hsilent
      (c.queued m)
    have hsilent' : (s.afterBody supply depth i c m).Silent [i] := by
      intro j hj l hl
      rw [List.mem_singleton.1 hj, hlogger'] at hl
      cases hl
      exact hsilent
    have hresult : ∀ log, ((s.afterBody supply depth i c m).deliver supply (react supply depth) i
        (c.queued m)).result = log → (s.mutate supply (react supply depth) i m).result =
        conclude c.profile.id body log := fun log hlog => hlog ▸ h.result
    refine ⟨told, _, body, _, sent, dropped, {
      toUpheld := h
      split := h.journal
      queued := hqueued
      logs := (hsilent'.deliver supply (react_silent supply depth) (List.mem_singleton_self i)
        (c.queued m)).logs
      batch := ⟨hbatch.log, hbatch.outcome⟩
      value := fun a hbody hlog => by rw [hresult _ hlog, hbody]; rfl
      sinkFault := fun a f hbody hlog => by rw [hresult _ hlog, hbody]; rfl
      ownFault := fun f hbody hlog => by rw [hresult _ hlog, hbody]; rfl
      bothFaults := fun f g hbody hlog => ⟨by rw [hresult _ hlog, hbody]; rfl, ?_⟩ }⟩
    rcases h.own with hown | ⟨f', e, hbody', hfailed, -⟩
    · -- what fails by itself has nothing to deliver
      rw [hbody] at hown
      cases happly : c.apply m with
      | error error =>
        rw [Change.queued_of_error happly] at hlog
        cases hlog
      | ok e =>
        rw [happly] at hown
        cases hown
    · rw [hbody] at hbody'
      cases hbody'
      exact hfailed
  refused _ _ _ m hmarked := mutate_of_mutating hmarked m

/-! ## Runs -/

/-- **The delivery of events and the attribution of errors in a run.** Commands run one after the
other, whether they fail or not; listeners run any commands and fail, and sinks fail on any event,
but do not call back. The sinks stay like that, so that what is said of mutations is true of each one
that is let in, be it by a command or by a listener. -/
theorem performAll_delivers (supply : Supply) (commands : List Command) (s : Session)
    (hsilent : s.Silent s.places) :
    Attributed s (s.journalOf supply commands) ∧
    Stamped supply s (s.journalOf supply commands) (s.afterAll supply commands) ∧
    (s.afterAll supply commands).Silent s.places ∧
    ∀ t, Delivering supply t := by
  have hheard : s.Heard False s.places := ⟨hsilent, False.elim⟩
  obtain ⟨hheard', hcovers⟩ := covers_performAll hheard (fun _ _ => mem_places) supply commands
  refine ⟨⟨fun before h later i e heq hlogged => ?_⟩,
    performAll_composes (composes_stamped supply) commands s, hheard'.silent, delivering supply⟩
  have hreads := hcovers.reads
  rw [heq] at hreads
  obtain ⟨first, m, during, outcome, block, c, sent, rest, hbefore, hduring, hblock, hc, hsent,
    hqueued⟩ := hreads.origin hlogged rfl rfl
  exact ⟨c, first, m, during, outcome, block, sent, rest, hc, hbefore, hduring, hblock, hsent,
    hqueued⟩

/-- A change whose listener fails, and a sink that fails on raw overrides. -/
def faulty : Session where
  slots := [
    { change := { profile := ⟨.one, none, none, false, false, none, true⟩, listener := some 0 } }]
  loggers := [{ sink := some (.script [.rawSet] []) }]
  listeners := [{ name := "strict", reactions := [[{ command := .raise "strict" }]] }]

/-- An override, whose second event is dropped, and then the overrides are cleared. -/
def overrideAndClear : List Command :=
  [.setRawOverride 0 (.named "app") { enabled := true } .allowed (some noGate), .clearOverrides 0]

theorem faulty_delivers :
    let supply : Supply := { (default : Supply) with stamp := Nat.repr }
    faulty.Silent faulty.places ∧
    stampsOf (faulty.journalOf supply overrideAndClear) = [
      (0, ⟨⟨.rawSet, .ofSafeInt .one, some "app", some true⟩, "0"⟩),
      (0, ⟨⟨.cleared, .ofSafeInt .one, none, none⟩, "1"⟩)] ∧
    Attributed faulty (faulty.journalOf supply overrideAndClear) ∧
    Stamped supply faulty (faulty.journalOf supply overrideAndClear)
      (faulty.afterAll supply overrideAndClear) ∧
    (faulty.afterAll supply overrideAndClear).Silent faulty.places ∧
    ∀ t, Delivering supply t := by
  intro supply
  have hsilent : faulty.Silent faulty.places := by
    intro i hi logger hlogger
    match i, List.mem_range.1 hi with
    | 0, _ =>
      cases hlogger
      exact fun _ hmem => absurd hmem List.not_mem_nil
  exact ⟨hsilent, by decide +kernel, performAll_delivers supply overrideAndClear faulty hsilent⟩

end Session

end ChangeGate
