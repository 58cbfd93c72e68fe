import ChangeGate.Proofs.Session.Stretch
/-!
# What no run undoes

Whatever a command does, and whatever is called back meanwhile, it does to a session in five ways
only: it acts on the changes, it uses up reactions of a listener or of a sink, it reads the clock,
and it goes on with the storage that there is. What holds of a session and is kept by each of the
five (`Kept`) is kept by every run, however deep callbacks nest (`react_keeps`).
-/

namespace ChangeGate

/-- **A property of sessions that no run undoes.** -/
structure Kept (P : Session → Prop) : Prop where
  slots : ∀ s slots, P s → P { s with slots }
  listeners : ∀ s listeners, P s → P { s with listeners }
  ticks : ∀ s ticks, P s → P { s with ticks }
  stored : ∀ (s : Session) storage logged, (s.storage.InMemory → storage.InMemory) → P s →
    P { s with storage, logged }
  used : ∀ (s : Session) i logger failOn reactions, s.loggers[i]? = some logger →
    logger.sink = some (.script failOn reactions) → P s →
    P { s with loggers :=
      s.loggers.set i { logger with sink := some (.script failOn reactions.tail) } }

/-- A reactor that keeps a property. -/
def Reactor.Keeps (react : Reactor) (P : Session → Prop) : Prop :=
  ∀ notified? reaction s, P s → P (react notified? reaction s).session

namespace Kept

variable {P : Session → Prop}

theorem chains : Chains fun s _ s' => P s → P s' where
  still _ hs := hs
  trans hfirst hlater hs := hlater (hfirst hs)

theorem delivers (hP : Kept P) (supply : Supply) (i : Nat) :
    Delivers supply (fun s _ s' => P s → P s') i where
  toChains := chains
  written s logger _ _ storage _ _ hmemory hs := by
    cases logger.clock with
    | counting => exact hP.stored _ storage _ hmemory (hP.ticks s _ hs)
    | timeOfDay => exact hP.stored s storage _ hmemory hs
  delivered s logger failOn reactions _ _ hlogger hsink hs := by
    have hread : P (s.readClock supply logger.clock).1 ∧
        s.loggers = (s.readClock supply logger.clock).1.loggers := by
      cases logger.clock with
      | counting => exact ⟨hP.ticks s _ hs, rfl⟩
      | timeOfDay => exact ⟨hs, rfl⟩
    rw [hread.2] at hlogger ⊢
    exact hP.used _ i logger failOn reactions hlogger hsink hread.1

/-- **What single steps keep is kept by whatever consists of them.** -/
theorem steps (hP : Kept P) (supply : Supply) : Steps supply fun s _ s' => P s → P s' where
  toChains := chains
  stored s storage hmemory hs := hP.stored s storage s.logged hmemory hs
  reached _ hs := hs
  refused _ _ _ hs := hs
  opened s _ _ slots hs := hP.slots s slots hs
  closed s _ _ slots hs := hP.slots s slots hs
  notified s _ _ _ _ listeners hs := hP.listeners s listeners hs
  delivers := hP.delivers supply

end Kept

namespace Session

variable {P : Session → Prop} {s : Session} {supply : Supply} {react : Reactor}

theorem deliverOne_keeps (hP : Kept P) (hreact : react.Keeps P) (hs : P s) (i : Nat) (e : Event) :
    P (s.deliverOne supply react i e).session :=
  (hP.delivers supply i).deliverOne hreact e s hs

/-- **What no run undoes is kept by reactions,** however deep they nest. -/
theorem react_keeps (hP : Kept P) (supply : Supply) (depth : Nat) :
    (Session.react supply depth).Keeps P :=
  (hP.steps supply).composes.react depth

end Session

end ChangeGate
