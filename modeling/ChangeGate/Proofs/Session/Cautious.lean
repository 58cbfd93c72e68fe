import ChangeGate.Proofs.Session.Kept
/-!
# Sinks that guard what they call

A cautious logger writes to a file, or has a sink that fails on no kind of event and guards every
command that it calls back with. What such a sink calls may fail, and may reach the very change
whose event it is given; but the sink does not (`Cautious.deliverOne`). Loggers stay cautious
whatever is run, so there is no point of a run at which a delivery to one fails.
-/

namespace ChangeGate

/-- A reaction out of which no failure comes. -/
def Reaction.Guarded (reaction : Reaction) : Prop :=
  ∀ step ∈ reaction, step.guarded = true

/-- **A logger whose sink guards what it calls.** -/
def Logger.Cautious (l : Logger) : Prop :=
  match l.sink with
  | some (.script failOn reactions) => failOn = [] ∧ ∀ reaction ∈ reactions, reaction.Guarded
  | _ => True

namespace Session

/-- **The sinks of the changes at some places guard what they call,** and what they write to files
goes to memory. -/
structure Cautious (s : Session) (places : List Nat) : Prop where
  memory : s.storage.InMemory
  loggers : ∀ i ∈ places, ∀ logger, s.loggers[i]? = some logger → logger.Cautious

/-- A scripted sink loses its reactions one by one, and nothing else happens to loggers. -/
theorem kept_cautious (places : List Nat) : Kept fun s => s.Cautious places where
  slots _ _ h := ⟨h.memory, h.loggers⟩
  listeners _ _ h := ⟨h.memory, h.loggers⟩
  ticks _ _ h := ⟨h.memory, h.loggers⟩
  stored _ _ _ hstorage h := ⟨hstorage h.memory, h.loggers⟩
  used s i logger failOn reactions hlogger hsink h := by
    refine ⟨h.memory, fun j hj l hl => ?_⟩
    rw [List.getElem?_set'] at hl
    split at hl
    · rename_i hij
      subst hij
      obtain ⟨-, -, rfl⟩ := Option.map_eq_some_iff.1 hl
      have hcautious := h.loggers i hj logger hlogger
      rw [Logger.Cautious, hsink] at hcautious
      exact ⟨hcautious.1, fun reaction hmem =>
        hcautious.2 reaction (List.mem_of_mem_tail hmem)⟩
    · exact h.loggers j hj l hl

theorem runSteps_guarded {run : Command → Session → Done Answer} {reaction : Reaction}
    (hguarded : reaction.Guarded) (s : Session) : (runSteps run reaction s).fault = none := by
  induction reaction generalizing s with
  | nil => rfl
  | cons step rest ih =>
    have hstep := hguarded step List.mem_cons_self
    have hrest := ih fun step hmem => hguarded step (List.mem_cons_of_mem _ hmem)
    unfold runSteps
    dsimp only
    split
    · rename_i hunguarded
      rw [hstep] at hunguarded
      cases hunguarded
    · exact hrest _

theorem react_guarded (supply : Supply) (depth : Nat) {reaction : Reaction}
    (hguarded : reaction.Guarded) (notified? : Option String) (s : Session) :
    (react supply depth notified? reaction s).fault = none := by
  cases depth with
  | zero => rfl
  | succ depth => exact runSteps_guarded hguarded s

/-- A sink that fails on no kind of event fails only as its reaction does. -/
theorem callSink_guarded (supply : Supply) (depth : Nat) {reactions : List Reaction}
    (hguarded : ∀ reaction ∈ reactions, reaction.Guarded) (i : Nat) (logger : Logger)
    (e : StampedEvent) (s : Session) :
    (s.callSink (react supply depth) i logger [] reactions e).result = .ok () := by
  unfold callSink
  simp only [List.contains_nil, Bool.false_eq_true, if_false]
  cases reactions with
  | nil => rfl
  | cons reaction rest =>
    dsimp only
    rw [react_guarded supply depth (hguarded reaction List.mem_cons_self)]

/-- **A delivery to a cautious logger does not fail.** -/
theorem Cautious.deliverOne {s : Session} {places : List Nat} {i : Nat} (h : s.Cautious places)
    (hi : i ∈ places) (supply : Supply) (depth : Nat) (e : Event) :
    (s.deliverOne supply (react supply depth) i e).result = .ok () := by
  unfold Session.deliverOne
  split
  · rfl
  · rename_i logger hlogger
    have hcautious := h.loggers i hi logger hlogger
    unfold Logger.Cautious at hcautious
    obtain ⟨m, hm⟩ : (s.readClock supply logger.clock).1.storage.InMemory := by
      cases logger.clock <;> exact h.memory
    split
    · rfl
    · rename_i sink hsink
      rw [hsink] at hcautious
      dsimp only
      split
      · unfold writeEvent
        rw [hm]
        rfl
      · obtain ⟨rfl, hguarded⟩ := hcautious
        exact callSink_guarded supply depth hguarded i logger _ _

end Session

end ChangeGate
