import ChangeGate.Proofs.Session.Kept
import ChangeGate.Proofs.Session.Ledger
import ChangeGate.Proofs.Session.Quiet
/-!
# Batches of events

The events of a mutation go to the logger one after the other, up to the first one that fails. For
a sink that does not call back, `Batch` says what comes of it: a first part of the events goes out,
and the rest is dropped if the last one that went out failed; otherwise there is no rest.

For a logger whose sink does not fail either, nothing is dropped (`Recording.deliver`).
-/

namespace ChangeGate

/-- Whether a logger writes to a file. -/
def Logger.writes (l : Logger) : Bool :=
  match l.sink with
  | some (.file _) => true
  | _ => false

theorem Logger.Quiet.silent {logger : Logger} (h : logger.Quiet) : logger.Silent := by
  unfold Logger.Quiet at h
  unfold Logger.Silent
  cases hsink : logger.sink with
  | none => trivial
  | some sink =>
    rw [hsink] at h
    cases sink with
    | file filename => trivial
    | script failOn reactions =>
      intro reaction hmem step hstep
      rw [h.2 reaction hmem] at hstep
      cases hstep

namespace Session

/-- **One event that goes to a sink which does not call back.** -/
structure Handed (i : Nat) (s : Session) (e : Event) (d : Done Unit) : Prop where
  journal : ∃ h n stamp, d.journal = h :: List.replicate n (.reached s.changes) ∧
    h.logged? = some (i, ⟨e, stamp⟩)
  logger : ∃ next, d.session.loggers[i]? = some next ∧ next.Silent ∧ next.sink.isSome = true

/-- **A batch that goes to a sink which does not call back:** `sent` are the events that went out,
and `dropped` those that did not because the last one before them had failed. -/
structure Batch (supply : Supply) (depth i : Nat) (s : Session) (sent dropped : List Event)
    (d : Done Unit) : Prop where
  log : logOf d.journal = sent.map (i, ·)
  outcome : (dropped = [] ∧ d.result = .ok ()) ∨
    ∃ init last f, sent = init ++ [last] ∧ d.result = .error f ∧
      (s.deliver supply (react supply depth) i init).result = .ok () ∧
      ((s.deliver supply (react supply depth) i init).session.deliverOne supply
        (react supply depth) i last).result = .error f

variable (supply : Supply) (depth : Nat) {i : Nat} {logger : Logger} {s : Session}

/-! ## Without a sink -/

theorem deliver_of_no_sink {react : Reactor}
    (hnone : ∀ logger, s.loggers[i]? = some logger → logger.sink = none) (events : List Event) :
    s.deliver supply react i events = .ok s () := by
  induction events with
  | nil => rfl
  | cons e rest ih =>
    have hfirst : s.deliverOne supply react i e = .ok s () := by
      unfold deliverOne
      split
      · rfl
      · rename_i logger hlogger
        rw [hnone logger hlogger]
    rw [deliver, hfirst]
    exact congrArg (fun d : Done Unit => { d with journal := [] ++ d.journal }) ih

/-! ## With a sink that does not call back -/

/-- All that is left of a call of the sink is that a reaction is used up. -/
theorem callSink_of_silent {failOn : List EventKind} {reactions : List Reaction}
    (hsilent : ∀ reaction ∈ reactions, reaction.Silent) (e : StampedEvent) :
    (s.callSink (react supply depth) i logger failOn reactions e).session = { s with
      loggers := s.loggers.set i { logger with sink := some (.script failOn reactions.tail) } } ∧
    ∃ reaction n, (s.callSink (react supply depth) i logger failOn reactions e).journal =
      .delivered i e reaction :: List.replicate n (.reached s.changes) := by
  unfold callSink
  dsimp only
  split
  · exact ⟨rfl, none, 0, rfl⟩
  · cases reactions with
    | nil => exact ⟨rfl, none, 0, rfl⟩
    | cons reaction rest =>
      obtain ⟨hsession, n, hjournal⟩ := react_of_silent supply depth
        (hsilent reaction List.mem_cons_self) e.event.packageName
        { s with loggers := s.loggers.set i { logger with sink := some (.script failOn rest) } }
      exact ⟨hsession, _, n, congrArg _ hjournal⟩

theorem handed_of_silent (hlogger : s.loggers[i]? = some logger)
    (hsink : logger.sink.isSome = true) (hsilent : logger.Silent) (e : Event) :
    Handed i s e (s.deliverOne supply (react supply depth) i e) := by
  obtain ⟨sink, hsome⟩ := Option.isSome_iff_exists.1 hsink
  have hclock : (s.readClock supply logger.clock).1.loggers = s.loggers ∧
      (s.readClock supply logger.clock).1.changes = s.changes := by
    cases logger.clock <;> exact ⟨rfl, rfl⟩
  obtain ⟨hloggers, hchanges⟩ := hclock
  unfold deliverOne
  rw [hlogger]
  dsimp only
  rw [hsome]
  cases sink with
  | file filename =>
    exact ⟨⟨_, 0, _, rfl, rfl⟩, logger, by rw [← hlogger, ← hloggers]; rfl, hsilent, hsink⟩
  | script failOn reactions =>
    have hreactions : ∀ reaction ∈ reactions, reaction.Silent := by
      rwa [Logger.Silent, hsome] at hsilent
    dsimp only
    obtain ⟨hsession, reaction, n, hjournal⟩ := @callSink_of_silent supply depth i logger
      (s.readClock supply logger.clock).1 failOn reactions hreactions
      ⟨e, (s.readClock supply logger.clock).2⟩
    refine ⟨⟨_, n, _, by rw [hjournal, hchanges], rfl⟩, ?_⟩
    rw [hsession]
    exact ⟨_, getElem?_put_self (hloggers ▸ hlogger) _,
      fun reaction hmem => hreactions reaction (List.mem_of_mem_tail hmem), rfl⟩

theorem Handed.log {e : Event} {d : Done Unit} (h : Handed i s e d) :
    logOf d.journal = [(i, e)] := by
  obtain ⟨first, n, stamp, hjournal, hlogged⟩ := h.journal
  rw [hjournal, logOf, stampsOf, List.filterMap_cons_some hlogged, List.filterMap_replicate]
  rfl

/-- **A batch goes out up to the first event that fails.** -/
theorem batch_of_silent (hlogger : s.loggers[i]? = some logger)
    (hsink : logger.sink.isSome = true) (hsilent : logger.Silent) (events : List Event) :
    ∃ sent dropped, events = sent ++ dropped ∧
      Batch supply depth i s sent dropped (s.deliver supply (react supply depth) i events) := by
  induction events generalizing s logger with
  | nil => exact ⟨[], [], rfl, rfl, Or.inl ⟨rfl, rfl⟩⟩
  | cons e rest ih =>
    have hfirst := handed_of_silent supply depth hlogger hsink hsilent e
    have hcons : ∀ events, s.deliver supply (react supply depth) i (e :: events) =
        (s.deliverOne supply (react supply depth) i e).next fun _ s =>
          deliver supply (react supply depth) i events s := fun _ => rfl
    generalize hone : s.deliverOne supply (react supply depth) i e = one at hfirst hcons
    obtain ⟨session, journal, result⟩ := one
    cases result with
    | error f =>
      refine ⟨[e], rest, rfl, ?_⟩
      rw [hcons]
      exact ⟨hfirst.log, Or.inr ⟨[], e, f, rfl, rfl, rfl, congrArg _ hone⟩⟩
    | ok _ =>
      obtain ⟨next, hnext, hsilent', hsink'⟩ := hfirst.logger
      obtain ⟨sent, dropped, rfl, hbatch⟩ := ih hnext hsink' hsilent'
      refine ⟨e :: sent, dropped, rfl, ?_, ?_⟩
      · rw [hcons]
        change logOf (journal ++ _) = _
        rw [logOf_append, hfirst.log, hbatch.log]
        rfl
      · rcases hbatch.outcome with ⟨hdropped, hresult⟩ | ⟨init, last, f, rfl, hresult, htaken, hlast⟩
        · refine Or.inl ⟨hdropped, ?_⟩
          rw [hcons]
          exact hresult
        · refine Or.inr ⟨e :: init, last, f, rfl, ?_, ?_, ?_⟩
          · rw [hcons]
            exact hresult
          · rw [hcons]
            exact htaken
          · rw [hcons]
            exact hlast

/-! ## With a sink that does not fail either -/

/-- **The changes at some places have loggers that take whatever they are given:** each has a sink
that neither fails nor calls back. A log file is in memory, where nothing can go wrong. -/
def Recording (s : Session) (places : List Nat) : Prop :=
  ∀ i ∈ places, ∃ logger, s.loggers[i]? = some logger ∧ logger.sink.isSome = true ∧
    logger.Quiet ∧ (logger.writes = true → s.storage.InMemory)

/-- A scripted sink loses its reactions one by one, and what it has left is as quiet. -/
theorem kept_recording (places : List Nat) : Kept fun s => s.Recording places where
  slots _ _ h := h
  listeners _ _ h := h
  ticks _ _ h := h
  stored _ _ _ hstorage h := fun i hi =>
    have ⟨logger, hlogger, hsink, hquiet, hmemory⟩ := h i hi
    ⟨logger, hlogger, hsink, hquiet, fun hwrites => hstorage (hmemory hwrites)⟩
  used s i logger failOn reactions hlogger hsink h := by
    intro j hj
    rw [getElem?_put hlogger]
    split
    · rename_i hij
      subst hij
      obtain ⟨l, hl, -, hquiet, -⟩ := h i hj
      rw [hlogger] at hl
      cases hl
      rw [Logger.Quiet, hsink] at hquiet
      exact ⟨_, rfl, rfl, ⟨hquiet.1, fun reaction hmem =>
        hquiet.2 reaction (List.mem_of_mem_tail hmem)⟩, nofun⟩
    · exact h j hj

variable {places : List Nat}

/-- **A delivery to such a logger does not fail,** and leaves nothing in the journal but the event
that went out. -/
theorem Recording.deliverOne {react : Reactor} (hreact : react.Idle) (hs : s.Recording places)
    (hi : i ∈ places) (e : Event) :
    (s.deliverOne supply react i e).result = .ok () ∧
      ∀ h ∈ (s.deliverOne supply react i e).journal, h.logged?.isSome = true := by
  have hone : ∀ h h' : Happening, h'.logged?.isSome = true → h ∈ [h'] →
      h.logged?.isSome = true := fun h h' hlogged hmem => List.mem_singleton.1 hmem ▸ hlogged
  obtain ⟨logger, hlogger, hsink, hquiet, hmemory⟩ := hs i hi
  obtain ⟨sink, hsome⟩ := Option.isSome_iff_exists.1 hsink
  unfold Session.deliverOne
  rw [hlogger]
  dsimp only
  rw [hsome]
  dsimp only
  cases sink with
  | file filename =>
    obtain ⟨m, hm⟩ : (s.readClock supply logger.clock).1.storage.InMemory := by
      have h := hmemory (by rw [Logger.writes, hsome])
      cases logger.clock <;> exact h
    dsimp only
    unfold writeEvent
    rw [hm]
    exact ⟨rfl, fun h hmem => hone h _ rfl hmem⟩
  | script failOn reactions =>
    rw [Logger.Quiet, hsome] at hquiet
    obtain ⟨rfl, hreactions⟩ := hquiet
    dsimp only
    unfold Session.callSink
    dsimp only
    rw [if_neg (by simp)]
    split
    · exact ⟨rfl, fun h hmem => hone h _ rfl hmem⟩
    · rename_i reaction rest
      rw [hreactions reaction List.mem_cons_self, hreact]
      exact ⟨rfl, fun h hmem => hone h _ rfl hmem⟩

/-- **Nothing is dropped,** and nothing else happens meanwhile. -/
theorem Recording.deliver (hs : s.Recording places) (hi : i ∈ places) (events : List Event) :
    logOf (s.deliver supply (react supply depth) i events).journal = events.map (i, ·) ∧
      ∀ h ∈ (s.deliver supply (react supply depth) i events).journal,
        h.logged?.isSome = true := by
  have hall : (s.deliver supply (react supply depth) i events).result = .ok () ∧
      ∀ h ∈ (s.deliver supply (react supply depth) i events).journal,
        h.logged?.isSome = true := by
    induction events generalizing s with
    | nil => exact ⟨rfl, fun h hmem => absurd hmem List.not_mem_nil⟩
    | cons e rest ih =>
      obtain ⟨hresult, hfirst⟩ := hs.deliverOne supply (react_idle supply depth) hi e
      have hnext : (s.deliverOne supply (react supply depth) i e).session.Recording places :=
        deliverOne_keeps (kept_recording places)
          (react_keeps (kept_recording places) supply depth) hs i e
      obtain ⟨hresult', hrest⟩ := ih hnext
      rw [Session.deliver, Done.next, hresult]
      refine ⟨hresult', fun h hmem => ?_⟩
      rcases List.mem_append.1 hmem with hmem | hmem
      · exact hfirst h hmem
      · exact hrest h hmem
  refine ⟨?_, hall.2⟩
  obtain ⟨logger, hlogger, hsink, hquiet, -⟩ := hs i hi
  obtain ⟨sent, dropped, rfl, hbatch⟩ := batch_of_silent supply depth hlogger hsink
    (Logger.Quiet.silent hquiet) events
  rcases hbatch.outcome with ⟨rfl, -⟩ | ⟨init, last, f, -, hfailed, -⟩
  · rw [hbatch.log, List.append_nil]
  · rw [hall.1] at hfailed
    cases hfailed

end Session

end ChangeGate
