import ChangeGate.Proofs.Change.Current
import ChangeGate.Proofs.Session.Covered
/-!
# What is evaluated is current

`Change.UpToDate` holds of a change that mutations lead to from its definition, unless there is a
load among them. In a session the mutations that were let in are what counts, whoever called them:
those that a listener made in the middle of another change's mutation are among them, and those
that were refused are not.
-/

namespace ChangeGate

namespace Session

/-- **Nothing is stale at the end of a run.** The history of a change is what was let in, in the
order in which it was, even where its listener or its sink then failed. -/
theorem upToDate_afterAll (supply : Supply) (commands : List Command) (s : Session)
    (hfresh : s.Fresh) {i : Nat} {c : Change}
    (hc : (s.afterAll supply commands).change? i = some c)
    (hloads : ∀ m ∈ openedOf i (s.journalOf supply commands), ¬ m.Loads) :
    ∃ origin, s.change? i = some origin ∧
      Change.UpToDate origin (openedOf i (s.journalOf supply commands)) c := by
  have hserial := hfresh.idle.serial (performAll_replays supply commands s)
  rw [hserial.change] at hc
  obtain ⟨origin, horigin, rfl⟩ := Option.map_eq_some_iff.1 hc
  exact ⟨origin, horigin, Change.upToDate_run (hfresh.empty horigin) hloads⟩

/-- A change that may be overridden, and a listener that fails whenever it is told. -/
def failing : Session where
  slots := [{ change := { profile := ⟨.one, none, none, false, false, none, true⟩ } }]
  listeners := [{ name := "failing", reactions := [
    [{ command := .raise "first" }], [{ command := .raise "second" }]] }]

/-- Overrides of two packages. That of `app` is out of range as it is set; it comes into effect
with a new version, of which the listener is told in vain, and its removal is denied. That of `lib`
must wait. -/
def rounds : List Command :=
  [.registerListener 0 0,
    .setRawOverride 0 (.named "app") { min := some (.ofSafeInt .one), enabled := true } .allowed
      (some noGate),
    .recheck 0 (.named "app") .allowed (some (.ofSafeInt .one)),
    .removeRawOverride 0 (.named "app") { reason := .platformTooOld } none,
    .setRawOverride 0 (.named "lib") { enabled := false } .deferred (some (.ofSafeInt .one))]

/-- What is left of that change. -/
def rounded : Change where
  profile := ⟨.one, none, none, false, false, none, true⟩
  maps := ⟨(NameMap.empty.insert "app" ⟨some .one, none, true, by simp⟩).insert "lib"
    (.unconditional false), NameMap.empty.insert "app" true⟩
  listener := some 0

theorem rounded_upToDate :
    failing.Fresh ∧
    (failing.afterAll default rounds).change? 0 = some rounded ∧
    (∀ m ∈ openedOf 0 (failing.journalOf default rounds), ¬ m.Loads) ∧
    ∃ origin, failing.change? 0 = some origin ∧
      Change.UpToDate origin (openedOf 0 (failing.journalOf default rounds)) rounded :=
  have hfresh : failing.Fresh := by
    intro slot hslot
    cases List.mem_singleton.1 hslot
    refine ⟨rfl, { id := .ofSafeInt .one, overridable := true }, ?_⟩
    simp [Change.ofDefinition, Definition.profile?, Definition.gate]
  have hc : (failing.afterAll default rounds).change? 0 = some rounded := by decide +kernel
  have hloads : ∀ m ∈ openedOf 0 (failing.journalOf default rounds), ¬ m.Loads := by
    decide +kernel
  ⟨hfresh, hc, hloads, upToDate_afterAll default rounds failing hfresh hc hloads⟩

end Session

end ChangeGate
