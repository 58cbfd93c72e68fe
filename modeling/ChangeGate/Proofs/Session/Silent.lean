import ChangeGate.Proofs.Session.Replay
/-!
# Sinks that do not call back

A silent logger has a sink that may fail, on any event and in any way, but never calls back. A
delivery to one leaves the changes and the listeners alone, and its journal has nothing in it but
the delivery itself (`Silent.deliver`).
-/

namespace ChangeGate

/-- A command that does nothing but fail. -/
def Command.Raises : Command → Prop
  | .raise _ => True
  | _ => False

/-- A reaction that does not call back. -/
def Reaction.Silent (reaction : Reaction) : Prop :=
  ∀ step ∈ reaction, step.command.Raises

/-- **A logger whose sink does not call back.** -/
def Logger.Silent (l : Logger) : Prop :=
  match l.sink with
  | some (.script _ reactions) => ∀ reaction ∈ reactions, reaction.Silent
  | _ => True

/-- What happens when events are delivered and nobody calls back. -/
def Happening.Logs : Happening → Prop
  | .delivered _ _ _ => True
  | .written _ _ => True
  | .reached _ => True
  | _ => False

/-- A reactor for which a reaction that does not call back is no more than that. -/
def Reactor.Silent (react : Reactor) : Prop :=
  ∀ notified? reaction s, reaction.Silent →
    (react notified? reaction s).session = s ∧ ∀ h ∈ (react notified? reaction s).journal, h.Logs

theorem openedOf_of_logs {journal : List Happening} (h : ∀ happening ∈ journal, happening.Logs)
    (i : Nat) : openedOf i journal = [] := by
  refine List.filterMap_eq_nil_iff.2 fun happening hmem => ?_
  have hlogs := h happening hmem
  cases happening with
  | opened => exact absurd hlogs id
  | _ => rfl

namespace Session

/-! ## Reactions -/

/-- A reaction that does not call back goes through its commands, and that is all. -/
theorem runSteps_silent {run : Command → Session → Done Answer}
    (hrun : ∀ message s, run (.raise message) s = .fail s (.raised message)) {reaction : Reaction}
    (hsilent : reaction.Silent) (s : Session) :
    (runSteps run reaction s).session = s ∧
      ∃ n, (runSteps run reaction s).journal = List.replicate n (.reached s.changes) := by
  induction reaction generalizing s with
  | nil => exact ⟨rfl, 0, rfl⟩
  | cons step rest ih =>
    obtain ⟨command, guarded⟩ := step
    have hraises := hsilent ⟨command, guarded⟩ List.mem_cons_self
    cases command with
    | raise message =>
      unfold runSteps
      dsimp only
      rw [hrun]
      cases guarded with
      | false => exact ⟨rfl, 1, rfl⟩
      | true =>
        have hrest : Reaction.Silent rest :=
          fun step hstep => hsilent step (List.mem_cons_of_mem _ hstep)
        obtain ⟨hsession, n, hjournal⟩ := ih hrest s
        refine ⟨hsession, n + 1, ?_⟩
        rw [List.replicate_succ, ← hjournal]
        rfl
    | _ => exact absurd hraises id

theorem react_of_silent (supply : Supply) (depth : Nat) {reaction : Reaction}
    (hsilent : reaction.Silent) (notified? : Option String) (s : Session) :
    (react supply depth notified? reaction s).session = s ∧
      ∃ n, (react supply depth notified? reaction s).journal =
        List.replicate n (.reached s.changes) := by
  cases depth with
  | zero => exact ⟨rfl, 0, rfl⟩
  | succ depth => exact runSteps_silent (fun _ _ => rfl) hsilent s

theorem react_silent (supply : Supply) (depth : Nat) : (react supply depth).Silent := by
  intro notified? reaction s hsilent
  obtain ⟨hsession, n, hjournal⟩ := react_of_silent supply depth hsilent notified? s
  refine ⟨hsession, fun h hmem => ?_⟩
  rw [hjournal] at hmem
  cases List.eq_of_mem_replicate hmem
  trivial

/-! ## Deliveries -/

/-- **The sinks of the changes at some places do not call back.** -/
def Silent (s : Session) (places : List Nat) : Prop :=
  ∀ i ∈ places, ∀ logger, s.loggers[i]? = some logger → logger.Silent

/-- **A delivery without calls back.** -/
structure OnlyLogs (s : Session) (places : List Nat) (d : Done Unit) : Prop where
  slots : d.session.slots = s.slots
  logs : ∀ h ∈ d.journal, h.Logs
  silent : d.session.Silent places

namespace Silent

variable (supply : Supply) {react : Reactor} {s : Session} {places : List Nat} {i : Nat}

theorem ok (hs : s.Silent places) : OnlyLogs s places (.ok s ()) :=
  ⟨rfl, fun _ hmem => absurd hmem List.not_mem_nil, hs⟩

theorem setLogger (hs : s.Silent places) {logger : Logger} (hlogger : logger.Silent) :
    Silent { s with loggers := s.loggers.set i logger } places := by
  intro j hj l hl
  rw [List.getElem?_set'] at hl
  split at hl
  · obtain ⟨-, -, rfl⟩ := Option.map_eq_some_iff.1 hl
    exact hlogger
  · exact hs j hj l hl

theorem callSink (hreact : react.Silent) (hs : s.Silent places) (logger : Logger)
    (failOn : List EventKind) {reactions : List Reaction}
    (hreactions : ∀ reaction ∈ reactions, reaction.Silent) (e : StampedEvent) :
    OnlyLogs s places (s.callSink react i logger failOn reactions e) := by
  have hleft : Logger.Silent { logger with sink := some (.script failOn reactions.tail) } :=
    fun reaction hmem => hreactions reaction (List.mem_of_mem_tail hmem)
  have hused := hs.setLogger (i := i) hleft
  have hdelivered : ∀ reaction, ∀ h ∈ [Happening.delivered i e reaction], h.Logs := by
    intro reaction h hmem
    cases List.mem_singleton.1 hmem
    trivial
  unfold Session.callSink
  dsimp only
  split
  · exact ⟨rfl, hdelivered none, hused⟩
  · cases reactions with
    | nil => exact ⟨rfl, hdelivered none, hused⟩
    | cons reaction rest =>
      obtain ⟨hsession, hlogs⟩ := hreact e.event.packageName reaction
        { s with loggers := s.loggers.set i { logger with sink := some (.script failOn rest) } }
        (hreactions reaction List.mem_cons_self)
      dsimp only [List.tail_cons] at hused ⊢
      rw [hsession]
      refine ⟨rfl, fun h hmem => ?_, hused⟩
      rcases List.mem_cons.1 hmem with rfl | hmem
      · trivial
      · exact hlogs h hmem

theorem deliverOne (hreact : react.Silent) (hs : s.Silent places) (hi : i ∈ places) (e : Event) :
    OnlyLogs s places (s.deliverOne supply react i e) := by
  unfold Session.deliverOne
  split
  · exact ok hs
  · rename_i logger hlogger
    have hclock : (s.readClock supply logger.clock).1.slots = s.slots ∧
        (s.readClock supply logger.clock).1.Silent places := by
      cases logger.clock <;> exact ⟨rfl, hs⟩
    have hsilent := hs i hi logger hlogger
    unfold Logger.Silent at hsilent
    split
    · exact ok hs
    · rename_i sink hsink
      rw [hsink] at hsilent
      dsimp only
      split
      · refine ⟨hclock.1, fun h hmem => ?_, hclock.2⟩
        cases List.mem_singleton.1 hmem
        trivial
      · obtain ⟨hslots, hlogs, hs'⟩ := hclock.2.callSink (i := i) hreact logger _ hsilent
          ⟨e, (s.readClock supply logger.clock).2⟩
        exact ⟨hslots.trans hclock.1, hlogs, hs'⟩

theorem deliver (hreact : react.Silent) (hs : s.Silent places) (hi : i ∈ places)
    (events : List Event) : OnlyLogs s places (s.deliver supply react i events) := by
  induction events generalizing s with
  | nil => exact ok hs
  | cons e rest ih =>
    obtain ⟨hslots, hlogs, hs'⟩ := deliverOne supply hreact hs hi e
    rw [Session.deliver, Done.next]
    split
    · exact ⟨hslots, hlogs, hs'⟩
    · obtain ⟨hslots', hlogs', hs''⟩ := ih hs'
      refine ⟨hslots'.trans hslots, fun h hmem => ?_, hs''⟩
      rcases List.mem_append.1 hmem with hmem | hmem
      · exact hlogs h hmem
      · exact hlogs' h hmem

end Silent

end Session

end ChangeGate
