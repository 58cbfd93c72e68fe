import ChangeGate.Proofs.Session.Ledger
/-!
# Time stamps

Every event that goes out is stamped with a reading of its own of its logger's clock, at the point
of the journal at which it goes out: the count of a clock is that of the readings before it, and
the time of day is that of the next event to be written. There are no other readings. This holds
of any run, whatever sinks and listeners do (`composes_stamped`).
-/

namespace ChangeGate

/-- Whether an event goes to a file. -/
def Happening.isWritten : Happening → Bool
  | .written _ _ => true
  | _ => false

/-- How many events went to files. -/
def writtenIn (journal : List Happening) : Nat :=
  journal.countP (·.isWritten)

namespace Session

/-- The clock of a change's logger. -/
def clock? (s : Session) (i : Nat) : Option Clock :=
  s.loggers[i]?.map (·.clock)

/-- How often clocks that count were read: once for each event of a change with such a clock. -/
def readings (s : Session) (journal : List Happening) : Nat :=
  (stampsOf journal).countP fun entry => s.clock? entry.1 = some .counting

/-- **The time stamp of an event of a change** that goes out behind some journal. -/
def stampAfter (supply : Supply) (s : Session) (before : List Happening) (i : Nat) : String :=
  match s.clock? i with
  | some .timeOfDay => (supply.moment (s.logged + writtenIn before)).text
  | _ => supply.stamp (s.ticks + s.readings before)

/-- **A stretch in which each event is stamped as it goes out,** and no clock is read otherwise. -/
structure Stamped (supply : Supply) (s : Session) (journal : List Happening) (s' : Session) :
    Prop where
  clocks : s'.clock? = s.clock?
  ticks : s'.ticks = s.ticks + s.readings journal
  logged : s'.logged = s.logged + writtenIn journal
  stamps : ∀ before h later i e, journal = before ++ h :: later → h.logged? = some (i, e) →
    e.timestamp = s.stampAfter supply before i

variable {supply : Supply} {s s' s'' : Session} {journal later : List Happening} {h : Happening}

theorem readings_append (s : Session) (journal later : List Happening) :
    s.readings (journal ++ later) = s.readings journal + s.readings later := by
  rw [readings, stampsOf_append, List.countP_append]
  rfl

namespace Stamped

theorem still (hclocks : s'.clock? = s.clock?) (hticks : s'.ticks = s.ticks)
    (hlogged : s'.logged = s.logged) : Stamped supply s [] s' :=
  ⟨hclocks, hticks, hlogged, fun before h later _ _ heq => by simp at heq⟩

/-- What is no delivery reads no clock. -/
theorem single (hnone : h.logged? = none) (hclocks : s'.clock? = s.clock?)
    (hticks : s'.ticks = s.ticks) (hlogged : s'.logged = s.logged) :
    Stamped supply s [h] s' where
  clocks := hclocks
  ticks := by rw [hticks, readings, stampsOf, List.filterMap_cons_none hnone]; rfl
  logged := by
    rw [hlogged, writtenIn, List.countP_singleton]
    cases h with
    | written => cases hnone
    | _ => rfl
  stamps before h' later i e heq hsome := by
    obtain ⟨rfl, rfl⟩ : before = [] ∧ h = h' := by
      cases before with
      | nil => exact ⟨rfl, (List.cons.inj heq).1⟩
      | cons first rest => simp at heq
    rw [hnone] at hsome
    cases hsome

theorem trans (hfirst : Stamped supply s journal s') (hlater : Stamped supply s' later s'') :
    Stamped supply s (journal ++ later) s'' where
  clocks := hlater.clocks.trans hfirst.clocks
  ticks := by
    have hreadings : s'.readings later = s.readings later := by
      rw [readings, readings, hfirst.clocks]
    rw [hlater.ticks, hfirst.ticks, hreadings, readings_append, Nat.add_assoc]
  logged := by
    rw [hlater.logged, hfirst.logged, writtenIn, writtenIn, writtenIn, List.countP_append,
      Nat.add_assoc]
  stamps before h rest i e heq hsome := by
    -- what goes out in the second part is counted from where the first one ended
    have hsecond : ∀ mid, later = mid ++ h :: rest →
        e.timestamp = s.stampAfter supply (journal ++ mid) i := by
      intro mid hmid
      have hstamp := hlater.stamps mid h rest i e hmid hsome
      have hreadings : s'.readings mid = s.readings mid := by
        rw [readings, readings, hfirst.clocks]
      rw [hstamp, stampAfter, stampAfter, hfirst.clocks, hfirst.ticks, hfirst.logged, hreadings,
        readings_append, writtenIn, writtenIn, writtenIn, List.countP_append, Nat.add_assoc,
        Nat.add_assoc]
    rcases List.append_eq_append_iff.1 heq with ⟨mid, rfl, hmid⟩ | ⟨mid, rfl, hrest⟩
    · exact hsecond mid hmid
    · cases mid with
      | nil => simpa using hsecond [] hrest.symm
      | cons first mid =>
        obtain ⟨rfl, rfl⟩ := List.cons.inj hrest
        exact hfirst.stamps before h mid i e rfl hsome

end Stamped

theorem chains_stamped (supply : Supply) : Chains (Stamped supply) where
  still _ := .still rfl rfl rfl
  trans := Stamped.trans

/-- **An event goes out** with the time that the clock shows. -/
theorem stamped_of_logged {logger : Logger} {i : Nat} {e : Event}
    (hlogger : s.loggers[i]? = some logger)
    (hlogged : h.logged? = some (i, ⟨e, (s.readClock supply logger.clock).2⟩))
    (hclocks : s'.clock? = s.clock?)
    (hticks : s'.ticks = (s.readClock supply logger.clock).1.ticks)
    (hwritten : s'.logged = s.logged + writtenIn [h]) : Stamped supply s [h] s' where
  clocks := hclocks
  ticks := by
    rw [hticks, readings, stampsOf, List.filterMap_cons_some hlogged, List.countP_cons]
    have hclock : s.clock? i = some logger.clock := by rw [clock?, hlogger]; rfl
    cases hkind : logger.clock <;> simp [hclock, hkind, readClock]
  logged := hwritten
  stamps before h' later j e' heq hsome := by
    obtain ⟨rfl, rfl⟩ : before = [] ∧ h = h' := by
      cases before with
      | nil => exact ⟨rfl, (List.cons.inj heq).1⟩
      | cons first rest => simp at heq
    rw [hlogged] at hsome
    cases hsome
    have hclock : s.clock? i = some logger.clock := by rw [clock?, hlogger]; rfl
    rw [stampAfter, hclock]
    cases logger.clock <;> rfl

theorem delivers_stamped (supply : Supply) (i : Nat) : Delivers supply (Stamped supply) i where
  toChains := chains_stamped supply
  written s logger _ e _ hlogger _ _ :=
    stamped_of_logged hlogger rfl (by cases logger.clock <;> rfl) rfl rfl
  delivered s logger failOn reactions e _ hlogger _ := by
    refine stamped_of_logged hlogger rfl ?_ rfl ?_
    · funext j
      rw [clock?, clock?, getElem?_put hlogger]
      split
      · rename_i hij
        rw [← hij, hlogger]
        rfl
      · rfl
    · cases logger.clock <;> rfl

/-- **Every event of a run is stamped as it goes out.** -/
theorem composes_stamped (supply : Supply) : Composes supply (Stamped supply) :=
  Steps.composes {
    toChains := chains_stamped supply
    stored := fun _ _ _ => .still rfl rfl rfl
    reached := fun _ => .single rfl rfl rfl rfl
    refused := fun _ _ _ => .single rfl rfl rfl rfl
    opened := fun _ _ _ _ => .single rfl rfl rfl rfl
    closed := fun _ _ _ _ => .single rfl rfl rfl rfl
    notified := fun _ _ _ _ _ _ => .single rfl rfl rfl rfl
    delivers := delivers_stamped supply }

end Session

end ChangeGate
