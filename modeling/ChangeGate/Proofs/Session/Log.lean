import ChangeGate.Proofs.Session.Accounted
/-!
# The log replays to the state

With sinks that take whatever they are given, the log of a run is as good as its state. In any
stretch between two mutations of a change, the logged events of the change take the flags of its
overrides from those before the stretch to those after it, unless there is a load among its
mutations that brings something. And whatever callbacks do meanwhile, the events of one mutation
stand together in the log.
-/

namespace ChangeGate

/-- **A run whose log replays to its state.** The changes of a session at some point of its journal
are `c.run (openedOf i before)`, which is what a reaction finds there and what is left at the
end. -/
structure Recorded (s : Session) (journal : List Happening) (s' : Session) : Prop where
  replays : ∀ i c before stretch later, s.change? i = some c →
    journal = before ++ (stretch ++ later) → Between i before (stretch ++ later) →
    Between i (before ++ stretch) later → (∀ m ∈ openedOf i stretch, ¬ c.Imports m) →
    (loggedOf i stretch).foldl Flags.replay (c.run (openedOf i before)).flags =
      (c.run (openedOf i (before ++ stretch))).flags
  together : ∀ i c before m during outcome later, s.change? i = some c →
    journal = before ++ .opened i m :: (during ++ .closed i outcome :: later) →
    (∀ outcome', .closed i outcome' ∉ during) →
    loggedOf i during = [] ∧
      ∃ rest, logOf later = ((c.run (openedOf i before)).queued m).map (i, ·) ++ rest
  own : ∀ i c, s.change? i = some c → ∀ e ∈ loggedOf i journal, c.Owns e
  whole : ∀ i, Between i [] journal ∧ Between i journal []
  reached : ∀ i before changes later, journal = before ++ .reached changes :: later →
    changes[i]? = (s.change? i).map (·.run (openedOf i before))
  change : ∀ i, s'.change? i = (s.change? i).map (·.run (openedOf i journal))

namespace Session

/-- The places of all changes. -/
def places (s : Session) : List Nat :=
  List.range s.slots.length

/-- The ledger of a session in which nothing is running. -/
def ledger (s : Session) : Ledger where
  changes := s.change?

variable {supply : Supply} {s s' : Session} {journal : List Happening} {i : Nat} {c : Change}

theorem mem_places (hc : s.change? i = some c) : i ∈ s.places := by
  obtain ⟨slot, hslot, -⟩ := Option.map_eq_some_iff.1 hc
  exact List.mem_range.2 (List.getElem?_eq_some_iff.1 hslot).1

theorem matches_ledger {places : List Nat} (hplaces : ∀ i c, s.change? i = some c → i ∈ places) :
    s.ledger.Matches places s where
  changes _ := rfl
  known := hplaces
  idle _ _ _ := rfl

theorem not_running_nil (i : Nat) : ¬ Running i [] := by
  rintro ⟨before, m, during, heq, -⟩
  simp at heq

/-- **Whatever is accounted for without losses is recorded.** -/
theorem Idle.recorded {places : List Nat} (hidle : s.Idle) (hreplays : Replays s journal s')
    (hcovers : s.ledger.Covers True places s journal s') : Recorded s journal s' := by
  have hserial := hidle.serial hreplays
  have hreads := hcovers.reads
  have hpaid := hcovers.paid trivial
  have hwhole : ∀ i, Between i [] journal ∧ Between i journal [] := by
    refine fun i => ⟨⟨not_running_nil i, fun h hh e hlogged => ?_⟩, hserial.ended i, fun _ hh => by cases hh⟩
    cases journal with
    | nil => cases hh
    | cons first rest =>
      cases hh
      obtain ⟨-, rest, howed⟩ := hreads.1.posted i e hlogged
      cases howed
  have hreplay : ∀ i c before stretch later, s.change? i = some c →
      journal = before ++ (stretch ++ later) → Between i before (stretch ++ later) →
      Between i (before ++ stretch) later →
      loggedOf i stretch = (c.run (openedOf i before)).queuedAll (openedOf i stretch) := by
    rintro i c before stretch later hc rfl hfirst hlast
    exact hreads.loggedOf_eq hpaid rfl hc hfirst hlast
  exact {
    replays := by
      intro i c before stretch later hc heq hfirst hlast himports
      rw [hreplay i c before stretch later hc heq hfirst hlast, openedOf_append, Change.run_append]
      exact Change.replay_queuedAll fun m hm h =>
        himports m hm (Change.imports_of_profile (Change.run_profile c _) h)
    together := by
      rintro i c before m during outcome later hc rfl hduring
      have hopened : ∀ n, .opened i n ∉ during := by
        intro n hmem
        obtain ⟨first, rest, rfl⟩ := List.append_of_mem hmem
        refine hserial.opened (before ++ .opened i m :: first) i n
          (rest ++ .closed i outcome :: later) (by simp) ⟨before, m, first, rfl, fun o ho => ?_⟩
        exact hduring o (List.mem_append_left _ ho)
      obtain ⟨-, -, hbody⟩ := Ledger.reads_append.1 hreads
      obtain ⟨hbody, -, hlater⟩ := Ledger.reads_append.1 hbody
      rw [Ledger.after_append] at hpaid
      change (((s.ledger.after before).note (.opened i m)).after
        (during ++ .closed i outcome :: later)).owed = [] at hpaid
      rw [Ledger.after_append] at hpaid
      have hqueue : (((s.ledger.after before).note (.opened i m)).after during).queue i =
          (c.run (openedOf i before)).queued m := by
        have hchange := s.ledger.after_changes before i
        rw [show s.ledger.changes i = some c from hc] at hchange
        rw [Ledger.queue_of_open hduring hopened]
        simp [Ledger.note, hchange]
      refine ⟨hbody.loggedOf_of_open hduring fun _ => rfl, ?_⟩
      -- the body's end makes what was queued owed, and that goes out at once
      obtain ⟨block, rest, rfl, -, hblock⟩ := hlater.block hpaid
      refine ⟨logOf rest, ?_⟩
      rw [logOf_append, hblock, ← hqueue]
      rfl
    own := by
      intro i c hc e he
      rw [hreplay i c [] journal [] hc (by simp) (by simpa using (hwhole i).1)
        (by simpa using (hwhole i).2)] at he
      exact Change.owns_of_queuedAll he
    whole := hwhole
    reached := by
      obtain ⟨τ, hfollows, -, -⟩ := hreplays _ hidle.fits
      rintro i before changes later rfl
      rw [hfollows.changes_of_reached, ← change_cells, Option.map_map]
      rfl
    change := hserial.change }

/-- A run that is accounted for from the ledger of its beginning. -/
theorem covers_performAll {lossless : Prop} {places : List Nat}
    (hheard : s.Heard lossless places) (hplaces : ∀ i c, s.change? i = some c → i ∈ places)
    (supply : Supply) (commands : List Command) :
    (s.afterAll supply commands).Heard lossless places ∧
      s.ledger.Covers lossless places s (s.journalOf supply commands)
        (s.afterAll supply commands) :=
  have h := performAll_composes (composes_accounts lossless places supply) commands s hheard
  ⟨h.heard, h.covers _ (matches_ledger hplaces) fun _ => rfl⟩

theorem Recording.heard {places : List Nat} (h : s.Recording places) : s.Heard True places where
  silent i hi logger hlogger := by
    obtain ⟨l, hl, -, hquiet, -⟩ := h i hi
    rw [hlogger] at hl
    cases hl
    exact Logger.Quiet.silent hquiet
  recording _ := h

/-- **The log of a run replays to its state.** Commands run one after the other, whether they fail
or not, and listeners run any commands and fail; the sinks neither fail nor call back. The stretches
that the log replays include those between any two commands. -/
theorem performAll_recorded (supply : Supply) (commands : List Command) (s : Session)
    (hidle : s.Idle) (hrecording : s.Recording s.places) :
    Recorded s (s.journalOf supply commands) (s.afterAll supply commands) ∧
    ∀ first second, commands = first ++ second →
      s.journalOf supply commands =
        s.journalOf supply first ++ (s.afterAll supply first).journalOf supply second ∧
      ∀ i, Between i (s.journalOf supply first)
        ((s.afterAll supply first).journalOf supply second) := by
  have hplaces : ∀ i c, s.change? i = some c → i ∈ s.places := fun _ _ => mem_places
  have hrun : ∀ commands, Recorded s (s.journalOf supply commands) (s.afterAll supply commands) :=
    fun commands => hidle.recorded (performAll_replays supply commands s)
      (covers_performAll hrecording.heard hplaces supply commands).2
  refine ⟨hrun commands, ?_⟩
  rintro first second rfl
  have hreplays := performAll_replays supply first s
  obtain ⟨hheard, -⟩ := covers_performAll hrecording.heard hplaces supply first
  have hplaces' : ∀ i c, (s.afterAll supply first).change? i = some c → i ∈ s.places := by
    intro i c hc
    rw [hreplays.change?] at hc
    obtain ⟨d, hd, -⟩ := Option.map_eq_some_iff.1 hc
    exact hplaces i d hd
  have hsecond := (hidle.of_replays hreplays).recorded
    (performAll_replays supply second (s.afterAll supply first))
    (covers_performAll hheard hplaces' supply second).2
  exact ⟨journalOf_append supply first second s,
    fun i => ⟨((hrun first).whole i).2.1, ((hsecond).whole i).1.2⟩⟩

/-- Two changes whose events go to the same kind of sink, and a listener that sets an override of
the second one and then fails. -/
def relaying : Session where
  slots := [
    { change := { profile := ⟨.one, none, none, false, false, none, true⟩, listener := some 0 } },
    { change := { profile := ⟨.minusOne, none, none, false, false, none, true⟩ } }]
  loggers := [{ sink := some (.script [] []) }, { sink := some (.script [] []) }]
  listeners := [{ name := "relay", reactions := [[
    { command := .setRawOverride 1 .notified { enabled := true } .allowed (some noGate) },
    { command := .raise "relay" }]] }]

/-- An override of the first change, which is cleared again. -/
def relay : List Command :=
  [.setRawOverride 0 (.named "app") { enabled := true } .allowed (some noGate),
    .clearOverrides 0]

theorem relaying_recorded :
    relaying.Idle ∧ relaying.Recording relaying.places ∧
    logOf (relaying.journalOf default relay) = [
      (1, ⟨.rawSet, noGate, some "app", some true⟩),
      (1, ⟨.evaluatedSet, noGate, some "app", some true⟩),
      (0, ⟨.rawSet, .ofSafeInt .one, some "app", some true⟩),
      (0, ⟨.evaluatedSet, .ofSafeInt .one, some "app", some true⟩),
      (0, ⟨.cleared, .ofSafeInt .one, none, none⟩)] ∧
    Recorded relaying (relaying.journalOf default relay) (relaying.afterAll default relay) ∧
    ∀ first second, relay = first ++ second →
      relaying.journalOf default relay =
        relaying.journalOf default first ++
          (relaying.afterAll default first).journalOf default second ∧
      ∀ i, Between i (relaying.journalOf default first)
        ((relaying.afterAll default first).journalOf default second) :=
  have hidle : relaying.Idle := by
    intro slot hslot
    rcases List.mem_cons.1 hslot with rfl | hslot
    · rfl
    · rw [List.mem_singleton.1 hslot]
  have hrecording : relaying.Recording relaying.places := by
    intro i hi
    have hlogger : relaying.loggers[i]? = some { sink := some (.script [] []) } := by
      match i, List.mem_range.1 hi with
      | 0, _ => rfl
      | 1, _ => rfl
    exact ⟨_, hlogger, rfl, ⟨rfl, fun _ hmem => absurd hmem List.not_mem_nil⟩, nofun⟩
  ⟨hidle, hrecording, by decide +kernel, performAll_recorded default relay relaying hidle hrecording⟩

end Session

end ChangeGate
