import ChangeGate.Proofs.Session.Depth
import ChangeGate.Proofs.Session.Replay
import ChangeGate.Proofs.Session.Untroubled
/-!
# Mutations are serial

Callbacks may run any commands on any changes, nested as deep as they like, and fail. Still each
change goes through its mutations one after the other, in the order in which they were let in,
and comes out as if nothing had been called back. `Serial` says what this means of a journal, and
`performAll_serial` that it holds of every run between outermost commands.
-/

namespace ChangeGate

/-- **A journal in which mutations are serial.** A mutation is refused exactly if another one of
the same change is running; a body ends as its mutation does by itself, or with the failure of a
listener that it told; each change is what the mutations that were let in make of it; and nothing
is running at the end. -/
structure Serial (s : Session) (journal : List Happening) (s' : Session) : Prop where
  refused : ∀ before i m later, journal = before ++ .refused i m :: later → Running i before
  opened : ∀ before i m later, journal = before ++ .opened i m :: later → ¬ Running i before
  outcome : ∀ before i m during outcome later,
    journal = before ++ .opened i m :: (during ++ .closed i outcome :: later) →
    (∀ outcome', .closed i outcome' ∉ during) →
    ∃ c, s.change? i = some c ∧
      (outcome = ownOutcome ((c.run (openedOf i before)).apply m) ∨
        ∃ f e, outcome = .error f ∧ ListenerFailed i during f ∧
          (c.run (openedOf i before)).apply m = .ok e)
  change : ∀ i, s'.change? i = (s.change? i).map (·.run (openedOf i journal))
  ended : ∀ i, ¬ Running i journal

/-- **The mutation that a command is a call of,** and the place of its change. To remove an
override for no package is to reconcile none. -/
def Command.mutation? (notified? : Option String) : Command → Option (Nat × Mutation)
  | .registerListener i listener => some (i, .registerListener listener)
  | .setRawOverride i package draft verdict version =>
    match draft.build with
    | .error _ => none
    | .ok override =>
      some (i, .setRawOverride ((package.resolve notified?).getD "") override verdict version)
  | .recheck i package verdict version =>
    some (i, .recheck (package.resolve notified?) verdict version)
  | .removeRawOverride i package verdict version =>
    match package.resolve notified? with
    | some name => some (i, .removeRawOverride name verdict version)
    | none => some (i, .recheck none verdict version)
  | .clearOverrides i => some (i, .clearOverrides)
  | .loadOverrides i snapshot => some (i, .loadOverrides snapshot)
  | _ => none

/-- **The guard of a mutation:** a call runs it, whoever makes the call; it is refused, without a
trace, if the change is marked, and let in otherwise. -/
structure Guarded (supply : Supply) (s : Session) : Prop where
  called : ∀ react notified? c i m, c.mutation? notified? = some (i, m) →
    ∃ answer, s.performWith supply react notified? c = (s.mutate supply react i m).map answer
  guarded : ∀ react i m slot, s.slots[i]? = some slot →
    (slot.mutating = true ∧ s.mutate supply react i m =
      { session := s
        journal := [.refused i m]
        result := .error (.reentrant slot.change.profile.id) }) ∨
    (slot.mutating = false ∧
      ∃ later, (s.mutate supply react i m).journal = .opened i m :: later)

namespace Session

variable {supply : Supply} {s s' : Session} {journal : List Happening}

/-- No mutation is running. -/
def Idle (s : Session) : Prop :=
  ∀ slot ∈ s.slots, slot.mutating = false

/-- The changes of a session, with nothing running. -/
def cells (s : Session) : List Cell :=
  s.changes.map fun c => ⟨c, none⟩

theorem Idle.fits (hidle : s.Idle) : Fits s.cells s := by
  refine List.ext_getElem? fun i => ?_
  rw [cells, changes, List.map_map, List.map_map, List.getElem?_map]
  cases hslot : s.slots[i]? with
  | none => rfl
  | some slot =>
    have hmark := hidle slot (List.mem_of_getElem? hslot)
    obtain ⟨c, mutating⟩ := slot
    cases hmark
    rfl

theorem Idle.getElem?_muted (hidle : s.Idle) {i : Nat} {c : Change} (hc : s.change? i = some c) :
    s.muted.slots[i]? = some ⟨c, false⟩ := by
  obtain ⟨slot, hslot, rfl⟩ := Option.map_eq_some_iff.1 hc
  have hmark := hidle slot (List.mem_of_getElem? hslot)
  obtain ⟨c, mutating⟩ := slot
  cases hmark
  exact hslot

theorem body?_cells (s : Session) (i : Nat) : body? s.cells i = none := by
  rw [body?, cells, List.getElem?_map]
  cases s.changes[i]? <;> rfl

theorem change_cells (s : Session) (i : Nat) :
    s.cells[i]?.map (·.change) = s.change? i := by
  rw [cells, changes, change?, List.getElem?_map, List.getElem?_map, Option.map_map]
  cases s.slots[i]? <;> rfl

/-- A stretch of a run that begins with nothing running ends so. -/
theorem Idle.of_replays (hidle : s.Idle) (hreplays : Replays s journal s') : s'.Idle := by
  obtain ⟨τ, -, hfits, hsteady⟩ := hreplays _ hidle.fits
  intro slot hslot
  obtain ⟨i, hi⟩ := List.getElem?_of_mem hslot
  obtain ⟨cell, hcell, rfl⟩ := hfits.getElem? hi
  -- what is running at the end was running at the beginning
  have hbody := (hsteady i).1
  rw [body?_cells, body?, hcell] at hbody
  rw [show cell.body = none from hbody]
  rfl

/-- **Whatever can be read on the changes alone is serial.** -/
theorem Idle.serial (hidle : s.Idle) (hreplays : Replays s journal s') : Serial s journal s' := by
  obtain ⟨τ, hfollows, hfits, hsteady⟩ := hreplays _ hidle.fits
  exact {
    refused := by
      rintro before i m later rfl
      exact Follows.running_of_refused (body?_cells s i) hfollows
    opened := by
      rintro before i m later rfl
      exact Follows.not_running_of_opened (body?_cells s i) hfollows
    outcome := by
      rintro before i m during outcome later rfl hduring
      obtain ⟨cell, hcell, houtcome⟩ := hfollows.outcome_of_closed hduring
      refine ⟨cell.change, ?_, houtcome⟩
      rw [← change_cells, hcell]
      rfl
    change := fun i => by
      rw [hfits.change?, hfollows.change, ← change_cells, Option.map_map]
      rfl
    ended := fun i hrunning => by
      have hbody := (hfollows.running_iff (body?_cells s i)).2 hrunning
      rw [(hsteady i).1, body?_cells] at hbody
      cases hbody }

/-- **A call of a mutation** runs it. -/
theorem performWith_of_mutation? {react : Reactor} {notified? : Option String} {c : Command}
    {i : Nat} {m : Mutation} (h : c.mutation? notified? = some (i, m)) :
    ∃ answer, s.performWith supply react notified? c = (s.mutate supply react i m).map answer := by
  unfold Command.mutation? at h
  unfold performWith
  cases c with
  | registerListener | recheck | clearOverrides | loadOverrides =>
    cases h
    exact ⟨_, rfl⟩
  | setRawOverride j package draft verdict version =>
    dsimp only at h ⊢
    cases hdraft : draft.build with
    | error e =>
      rw [hdraft] at h
      cases h
    | ok override =>
      rw [hdraft] at h
      cases h
      exact ⟨_, rfl⟩
  | removeRawOverride j package verdict version =>
    dsimp only at h ⊢
    cases hpackage : package.resolve notified? with
    | none =>
      rw [hpackage] at h
      cases h
      exact ⟨_, rfl⟩
    | some name =>
      rw [hpackage] at h
      cases h
      exact ⟨_, rfl⟩
  | _ => cases h

/-- **The guard lets a mutation in unless one of the same change is running.** -/
theorem guarded (supply : Supply) (s : Session) : Guarded supply s := by
  refine ⟨fun _ _ _ _ _ => performWith_of_mutation?, fun react i m slot hslot => ?_⟩
  obtain ⟨c, mutating⟩ := slot
  cases mutating with
  | true => exact Or.inl ⟨rfl, mutate_of_mutating hslot m⟩
  | false =>
    refine Or.inr ⟨rfl, ?_⟩
    cases happly : c.apply m with
    | error error => exact ⟨_, congrArg Done.journal (mutate_of_error hslot happly)⟩
    | ok e => exact ⟨_, congrArg Done.journal (mutate_of_ok hslot happly)⟩

/-- **Mutations are serial under callbacks.** Outermost commands run one after the other, whether
they fail or not, and callbacks do what they like, nested as deep as their reactions go; each
change goes through its mutations as it does where they are called one by one and callbacks do
nothing, and afterwards it takes the next one. -/
theorem performAll_serial (supply : Supply) (commands : List Command) (s : Session)
    (hidle : s.Idle) :
    Serial s (s.journalOf supply commands) (s.afterAll supply commands) ∧
    (∀ t, Guarded supply t) ∧
    (∀ t, DeepEnough supply t) ∧
    (∀ i c, s.change? i = some c →
      OneByOne supply s.muted i c (openedOf i (s.journalOf supply commands))) ∧
    (s.afterAll supply commands).Idle :=
  have hreplays := performAll_replays supply commands s
  have halone : ∀ i c, s.change? i = some c →
      OneByOne supply s.muted i c (openedOf i (s.journalOf supply commands)) := by
    intro i c hc
    exact (quiet_muted s [i]).oneByOne supply (listenersIdle_muted s) (hidle.getElem?_muted hc) _
  ⟨hidle.serial hreplays, guarded supply, deepEnough supply, halone, hidle.of_replays hreplays⟩

/-- A change, and a listener that tries to take back the override that it is told of and then
fails. -/
def echoing : Session where
  slots := [{ change := { profile :=
    ⟨.one, none, none, false, false, none, true⟩ } }]
  listeners := [{ name := "echo", reactions := [[
    { command := .removeRawOverride 0 .notified .allowed none, guarded := true },
    { command := .raise "echo" }]] }]

/-- Registers that listener and sets an override. -/
def echo : List Command :=
  [.registerListener 0 0,
    .setRawOverride 0 (.named "app") { enabled := true } .allowed (some noGate)]

theorem echoing_serial :
    echoing.Idle ∧
    Serial echoing (echoing.journalOf default echo) (echoing.afterAll default echo) ∧
    (∀ t, Guarded default t) ∧
    (∀ t, DeepEnough default t) ∧
    (∀ i c, echoing.change? i = some c →
      OneByOne default echoing.muted i c (openedOf i (echoing.journalOf default echo))) ∧
    (echoing.afterAll default echo).Idle :=
  have hidle : echoing.Idle := by
    intro slot hslot
    cases List.mem_singleton.1 hslot
    rfl
  ⟨hidle, performAll_serial default echo echoing hidle⟩

end Session

end ChangeGate
