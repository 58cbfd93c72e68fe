import ChangeGate.Proofs.Session.Accept
import ChangeGate.Proofs.Session.Batch
import ChangeGate.Proofs.Session.Settled
import ChangeGate.Proofs.Snapshot.Precedence
/-!
# Snapshots merged into a change

A change that is not being mutated, and whose sink does not fail, refuses a snapshot for what is
wrong with the snapshot alone. `checkOverrides` finds the same without touching anything. What is
not refused overwrites the maps of the change entry by entry, and one event tells of it.
-/

namespace ChangeGate

namespace Session

/-- **A load of a snapshot into a change, and the check of the snapshot.** Both refuse the same
snapshots for the same reason; of what is refused nothing is left, and the check leaves nothing in
any case. What is not refused overwrites the maps, and the rest of the change stays. The listener is
not told, and what is logged is one event, unless the snapshot has no entry. -/
structure Merges (supply : Supply) (depth i : Nat) (c : Change) (snapshot : Snapshot) (s : Session)
    (load : Done (Option Bool)) (check : Done Answer) : Prop where
  own : snapshot.changeId.same c.idNumber = true ↔ snapshot.changeId = c.idNumber
  ranges : ∀ entry ∈ snapshot.rawEntries, ∀ error,
    entry.override = .error error ↔ BadBounds entry.min entry.max error
  refused : ∀ f, load.result = .error f ↔
    ∃ error, f = .change error ∧ c.RefusesSnapshot snapshot error
  untouched : ∀ f, load.result = .error f → load.session = s ∧ loggedOf i load.journal = []
  checked : ∀ f, check.result = .error f ↔ load.result = .error f
  looks : check.session = s ∧ check.journal = []
  taken : (∀ error, ¬ c.RefusesSnapshot snapshot error) → load.result = .ok none ∧
    ∃ e told body, Leaves supply depth i c (.loadOverrides snapshot) s e told body ∧
      snapshot.Overwrites c.maps e.change.maps ∧ e.change.profile = c.profile ∧
      e.change.listener = c.listener ∧ e.notify = none
  unlogged : snapshot.hasEntries = false → loggedOf i load.journal = []
  logged : ∀ logger, s.loggers[i]? = some logger → logger.sink.isSome = true →
    (∀ error, ¬ c.RefusesSnapshot snapshot error) → snapshot.hasEntries = true →
    ∃ h stamp later,
      load.journal = [.opened i (.loadOverrides snapshot), .closed i (.ok none), h] ++ later ∧
      h.logged? = some (i, ⟨c.event .loaded, stamp⟩) ∧ (s.Silent [i] → loggedOf i later = [])

section Stages

variable {supply : Supply} {react : Reactor} {depth i : Nat} {s : Session} {c : Change}
  {snapshot : Snapshot} {maps : OverrideMaps}

/-- An event that goes to a sink is what happens first, whatever the sink does. -/
theorem deliverOne_journal (supply : Supply) (react : Reactor) {logger : Logger}
    (hlogger : s.loggers[i]? = some logger) (hsink : logger.sink.isSome = true) (e : Event) :
    ∃ h stamp later, (s.deliverOne supply react i e).journal = h :: later ∧
      h.logged? = some (i, ⟨e, stamp⟩) := by
  obtain ⟨sink, hsome⟩ := Option.isSome_iff_exists.1 hsink
  unfold deliverOne
  rw [hlogger]
  dsimp only
  rw [hsome]
  dsimp only
  cases sink with
  | file filename => exact ⟨_, _, _, rfl, rfl⟩
  | script failOn reactions =>
    dsimp only
    unfold callSink
    dsimp only
    split
    · exact ⟨_, _, _, rfl, rfl⟩
    · split <;> exact ⟨_, _, _, rfl, rfl⟩

/-- What is logged after the first event of a delivery to a sink that does not call back. -/
theorem loggedOf_later {logger : Logger} (hlogger : s.loggers[i]? = some logger)
    (hsink : logger.sink.isSome = true) (hsilent : logger.Silent) {e : Event} {h : Happening}
    {stamp : String} {later : List Happening}
    (hjournal : (s.deliverOne supply (Session.react supply depth) i e).journal = h :: later)
    (hlogged : h.logged? = some (i, ⟨e, stamp⟩)) : loggedOf i later = [] := by
  have hlog := (handed_of_silent supply depth hlogger hsink hsilent e).log
  rw [hjournal, ← List.singleton_append, logOf_append, logOf_of_logged hlogged] at hlog
  have hnothing : logOf later = [] := List.append_right_eq_self.1 hlog
  rw [loggedOf, hnothing]
  rfl

/-- A load that the change takes, with a sink that does not fail. -/
theorem mutate_loadOverrides (hslot : s.slots[i]? = some ⟨c, false⟩)
    (hsinks : SinksHold supply react [i] s) (hfold : c.foldSnapshot snapshot = .ok maps) :
    ∃ e, c.apply (.loadOverrides snapshot) = .ok e ∧
      e.change = { c with maps := c.maps.merge maps } ∧ e.notify = none ∧
      (s.mutate supply react i (.loadOverrides snapshot)).result = .ok none ∧
      (s.mutate supply react i (.loadOverrides snapshot)).journal =
        .opened i (.loadOverrides snapshot) :: .closed i (.ok none) ::
          (if snapshot.hasEntries then
            ((s.setSlot i ⟨e.change, false⟩).deliverOne supply react i (c.event .loaded)).journal
          else []) := by
  have hi : i ∈ [i] := List.mem_singleton_self i
  have hreplaces : Mutation.Replaces (.loadOverrides snapshot) := trivial
  obtain ⟨e, happly, hchange, hnotify, hanswer, hevents⟩ : ∃ e,
      c.apply (.loadOverrides snapshot) = .ok e ∧
      e.change = { c with maps := c.maps.merge maps } ∧ e.notify = none ∧ e.answer = none ∧
      e.events = if snapshot.hasEntries then [c.event .loaded] else [] := by
    refine ⟨_, Change.apply_loadOverrides hfold, rfl, rfl, rfl, ?_⟩
    rw [Snapshot.isEmpty_of_fold (Change.foldSnapshot_ok hfold).2.1]
    cases snapshot.hasEntries <;> rfl
  have hmutate := mutate_of_notify_eq_none supply react hslot happly hnotify
  rw [(hsinks.settle hi hslot hreplaces happly).1, hanswer] at hmutate
  refine ⟨e, happly, hchange, hnotify, by rw [hmutate]; rfl, ?_⟩
  rw [hmutate, settle, hevents]
  cases snapshot.hasEntries with
  | false => rfl
  | true =>
    have hone := hsinks _ (.acted .refl hi hslot hreplaces happly) i hi (c.event .loaded)
    rw [if_pos rfl, if_pos rfl, deliver, Done.next_of_ok hone]
    dsimp only [deliver, Done.ok]
    rw [List.append_nil]

/-- The check of a snapshot that is refused does nothing else. -/
theorem checkOverrides_of_error (hslot : s.slots[i]? = some ⟨c, false⟩) {error : ChangeError}
    (hfold : c.foldSnapshot snapshot = .error error) (notified? : Option String) :
    s.performWith supply react notified? (.checkOverrides i snapshot) =
      .fail s (.change error) := by
  have hcheck := Change.checkSnapshot_eq_error_iff.2 (Change.foldSnapshot_eq_error_iff.1 hfold)
  dsimp only [performWith]
  rw [change?, hslot]
  dsimp only [Option.map_some]
  rw [hcheck]

/-- And that of one that is taken does nothing at all. -/
theorem checkOverrides_of_ok (hslot : s.slots[i]? = some ⟨c, false⟩)
    (hfold : c.foldSnapshot snapshot = .ok maps) (notified? : Option String) :
    s.performWith supply react notified? (.checkOverrides i snapshot) = .ok s .nothing := by
  have hcheck := Change.checkSnapshot_eq_ok_iff.2 ⟨maps, hfold⟩
  dsimp only [performWith]
  rw [change?, hslot]
  dsimp only [Option.map_some]
  rw [hcheck]

/-- A snapshot that is wrong is refused by both, for the one thing that is said against it. -/
theorem merges_of_refuses (supply : Supply) (depth : Nat) (notified? : Option String)
    (hslot : s.slots[i]? = some ⟨c, false⟩) {found : ChangeError}
    (hrefuses : c.RefusesSnapshot snapshot found) :
    Merges supply depth i c snapshot s
      (s.mutate supply (Session.react supply depth) i (.loadOverrides snapshot))
      (s.performWith supply (Session.react supply depth) notified?
        (.checkOverrides i snapshot)) := by
  have hfold := Change.foldSnapshot_eq_error_iff.2 hrefuses
  have honly : ∀ error, c.RefusesSnapshot snapshot error → error = found := fun error herror =>
    Except.error.inj ((Change.foldSnapshot_eq_error_iff.2 herror).symm.trans hfold)
  rw [checkOverrides_of_error hslot hfold notified?,
    mutate_of_error hslot (Change.Refuses.snapshot hrefuses).apply_eq]
  exact {
    own := Change.same_idNumber_iff
    ranges := fun entry _ error => RawEntry.override_eq_error_iff
    refused := fun f => by
      refine ⟨fun h => ⟨found, (Except.error.inj h).symm, hrefuses⟩, ?_⟩
      rintro ⟨error, rfl, herror⟩
      rw [honly error herror]
    untouched := fun _ _ => ⟨rfl, rfl⟩
    checked := fun _ => ⟨fun h => congrArg _ (Except.error.inj h), fun h =>
      congrArg _ (Except.error.inj h)⟩
    looks := ⟨rfl, rfl⟩
    taken := fun hnot => absurd hrefuses (hnot found)
    unlogged := fun _ => rfl
    logged := fun _ _ _ hnot _ => absurd hrefuses (hnot found) }

/-- A snapshot with nothing wrong is taken, and the check says nothing. -/
theorem merges_of_fold (depth : Nat) (notified? : Option String)
    (hslot : s.slots[i]? = some ⟨c, false⟩)
    (hsinks : SinksHold supply (Session.react supply depth) [i] s)
    (hfold : c.foldSnapshot snapshot = .ok maps) :
    Merges supply depth i c snapshot s
      (s.mutate supply (Session.react supply depth) i (.loadOverrides snapshot))
      (s.performWith supply (Session.react supply depth) notified?
        (.checkOverrides i snapshot)) := by
  have hnot : ∀ error, ¬ c.RefusesSnapshot snapshot error := fun error herror => by
    rw [Change.foldSnapshot_eq_error_iff.2 herror] at hfold
    cases hfold
  obtain ⟨e, happly, hmerged, hnotify, hresult, hjournal⟩ :=
    mutate_loadOverrides hslot hsinks hfold
  obtain ⟨told, body, hleaves⟩ := mutate_leaves supply depth hslot happly
  rw [checkOverrides_of_ok hslot hfold notified?]
  have hfine : ∀ f, (s.mutate supply (Session.react supply depth) i
      (.loadOverrides snapshot)).result ≠ .error f := by
    intro f hfailed
    rw [hresult] at hfailed
    cases hfailed
  refine {
    own := Change.same_idNumber_iff
    ranges := fun entry _ error => RawEntry.override_eq_error_iff
    refused := fun f => ⟨fun h => absurd h (hfine f), fun h => absurd h.choose_spec.2 (hnot _)⟩
    untouched := fun f h => absurd h (hfine f)
    checked := fun f => ⟨fun h => (by cases h), fun h => absurd h (hfine f)⟩
    looks := ⟨rfl, rfl⟩
    taken := fun _ => ⟨hresult, e, told, body, hleaves, ?_, by rw [hmerged], by rw [hmerged],
      hnotify⟩
    unlogged := fun hentries => ?_
    logged := fun logger hlogger hsink _ hentries => ?_ }
  · rw [hmerged]
    exact Snapshot.overwrites_of_fold (Change.foldSnapshot_ok hfold).2.1 c.maps
  · rw [hjournal, hentries]
    rfl
  · rw [hentries, if_pos rfl] at hjournal
    have hlogger' : (s.setSlot i ⟨e.change, false⟩).loggers[i]? = some logger := hlogger
    obtain ⟨h, stamp, later, hdelivered, hlogged⟩ :=
      deliverOne_journal supply (Session.react supply depth) hlogger' hsink (c.event .loaded)
    refine ⟨h, stamp, later, by rw [hjournal, hdelivered]; rfl, hlogged, fun hsilent => ?_⟩
    exact loggedOf_later hlogger' hsink
      (hsilent i (List.mem_singleton_self i) logger hlogger) hdelivered hlogged

end Stages

/-- **A change that is not being mutated, and whose sink does not fail, takes the right snapshots
and merges them by precedence,** and the check of a snapshot agrees with the load. -/
theorem loadOverrides_merges (supply : Supply) (depth : Nat) (notified? : Option String)
    {s : Session} {i : Nat} {c : Change} (hslot : s.slots[i]? = some ⟨c, false⟩)
    (hsinks : SinksHold supply (react supply depth) [i] s) (snapshot : Snapshot) :
    Merges supply depth i c snapshot s
      (s.mutate supply (react supply depth) i (.loadOverrides snapshot))
      (s.performWith supply (react supply depth) notified? (.checkOverrides i snapshot)) := by
  cases hfold : c.foldSnapshot snapshot with
  | error found =>
    exact merges_of_refuses supply depth notified? hslot (Change.foldSnapshot_eq_error_iff.1 hfold)
  | ok maps => exact merges_of_fold depth notified? hslot hsinks hfold

/-- A snapshot with entries in all categories, some of them for one package. -/
def mixed : Snapshot where
  changeId := .ofSafeInt .one
  raw := some [{ packageName := "app", enabled := true },
    { packageName := "app", min := some (.ofSafeInt .one), enabled := false }]
  validated := some [⟨"lib", true⟩, ⟨"lib", false⟩]
  deferred := some [⟨"app", true⟩, ⟨"web", true⟩]

/-- A snapshot with two bad ranges. -/
def crooked : Snapshot where
  changeId := .ofSafeInt .one
  raw := some [
    { packageName := "app", min := some (.ofSafeInt .one), max := some (.ofSafeInt .minusOne),
      enabled := true },
    { packageName := "lib", min := some .posInf, enabled := true }]

/-- The sink guards what it calls, which fails. -/
def guarding : Session where
  slots := [{ change := hosted }]
  loggers := [{ sink := some (.script [] [[{ command := .raise "full", guarded := true }]]) }]

theorem guarding_merges :
    guarding.slots[0]? = some ⟨hosted, false⟩ ∧
    SinksHold default (react default 1) [0] guarding ∧
    (∃ e told body, Leaves default 1 0 hosted (.loadOverrides mixed) guarding e told body ∧
      mixed.Overwrites hosted.maps e.change.maps ∧ e.change.profile = hosted.profile ∧
      e.change.listener = hosted.listener ∧ e.notify = none) ∧
    (guarding.mutate default (react default 1) 0 (.loadOverrides crooked)).result.isOk = false ∧
    Merges default 1 0 hosted crooked guarding
      (guarding.mutate default (react default 1) 0 (.loadOverrides crooked))
      (guarding.performWith default (react default 1) none (.checkOverrides 0 crooked)) := by
  have hcautious : guarding.Cautious [0] := by
    refine ⟨⟨{}, rfl⟩, fun i hi logger hlogger => ?_⟩
    cases List.mem_singleton.1 hi
    cases hlogger
    refine ⟨rfl, fun reaction hreaction step hstep => ?_⟩
    cases List.mem_singleton.1 hreaction
    cases List.mem_singleton.1 hstep
    rfl
  have hsinks := hcautious.sinksHold default 1
  have hslot : guarding.slots[0]? = some ⟨hosted, false⟩ := rfl
  have hnot : ∀ error, ¬ hosted.RefusesSnapshot mixed error := fun error herror => by
    have hok : (hosted.foldSnapshot mixed).isOk = true := by decide +kernel
    rw [Change.foldSnapshot_eq_error_iff.2 herror] at hok
    cases hok
  have hmixed := loadOverrides_merges default 1 none hslot hsinks mixed
  exact ⟨hslot, hsinks, (hmixed.taken hnot).2, by decide +kernel,
    loadOverrides_merges default 1 none hslot hsinks crooked⟩

end Session

end ChangeGate
