import ChangeGate.Proofs.Session.Cautious
import ChangeGate.Proofs.Session.Load
import ChangeGate.Proofs.Snapshot.Accepted
/-!
# Which files a load accepts

A load looks at the file twice: it is checked as it is read, and each snapshot is checked against
the change of its id. With sinks that do not fail, and no change being mutated, nothing else can go
wrong (`load_accepts`). What the first check lets through can be read by every change, so the second
one is about logging-only changes alone; and by then nothing has been touched.

That a sink does not fail is said of every point that a load can come to (`SinksHold`), for it may
call back. One that guards what it calls is such a sink (`Cautious.sinksHold`).
-/

namespace ChangeGate

/-- A mutation of the kind that a load calls. -/
def Mutation.Replaces : Mutation → Prop
  | .clearOverrides => True
  | .loadOverrides _ => True
  | _ => False

namespace Session

section Sinks

variable (supply : Supply) (react : Reactor) (places : List Nat)

/-- **Where a load of the changes at some places can come to:** changes have been acted on, and
events have gone to their sinks. -/
inductive Later (s : Session) : Session → Prop
  | refl : Later s s
  | acted {t : Session} {i : Nat} {c : Change} {m : Mutation} {e : Effect} :
      Later s t → i ∈ places → t.slots[i]? = some ⟨c, false⟩ → m.Replaces → c.apply m = .ok e →
      Later s (t.setSlot i ⟨e.change, false⟩)
  | delivered {t : Session} {i : Nat} {e : Event} :
      Later s t → i ∈ places → Later s (t.deliverOne supply react i e).session

/-- **Sinks that do not fail,** wherever a load comes to and whatever event they are given. They
may call back. -/
def SinksHold (s : Session) : Prop :=
  ∀ t, Later supply react places s t → ∀ i ∈ places, ∀ e,
    (t.deliverOne supply react i e).result = .ok ()

end Sinks

variable {supply : Supply} {react : Reactor} {places : List Nat} {s t : Session} {i : Nat}
  {c : Change} {m : Mutation} {e : Effect} {filename : String} {snapshots : List Snapshot}

theorem Later.trans {u : Session} (h : Later supply react places s t)
    (h' : Later supply react places t u) : Later supply react places s u := by
  induction h' with
  | refl => exact h
  | acted _ hi hslot hm happly ih => exact .acted ih hi hslot hm happly
  | delivered _ hi ih => exact .delivered ih hi

namespace SinksHold

theorem later (h : SinksHold supply react places s) (ht : Later supply react places s t) :
    SinksHold supply react places t :=
  fun u hu => h u (ht.trans hu)

theorem deliver (h : SinksHold supply react places s) (hi : i ∈ places) (events : List Event) :
    (s.deliver supply react i events).result = .ok () ∧
      SinksHold supply react places (s.deliver supply react i events).session := by
  induction events generalizing s with
  | nil => exact ⟨rfl, h⟩
  | cons e rest ih =>
    have hfirst := h s .refl i hi e
    have hrest := ih (h.later (.delivered (e := e) .refl hi))
    rw [Session.deliver, Done.next_of_ok hfirst]
    exact hrest

theorem settle (h : SinksHold supply react places s) (hi : i ∈ places)
    (hslot : s.slots[i]? = some ⟨c, false⟩) (hm : m.Replaces) (happly : c.apply m = .ok e) :
    (s.settle supply react i e).result = .ok () ∧
      SinksHold supply react places (s.settle supply react i e).session :=
  (h.later (.acted .refl hi hslot hm happly)).deliver hi e.events

/-- **Calls of changes that are not being mutated all go through.** -/
theorem callAll (hreact : react.Sound) {calls : List (Nat × Mutation)}
    (h : SinksHold supply react places s)
    (hcalls : ∀ call ∈ calls, call.1 ∈ places ∧ call.2.Replaces ∧
      ∃ c, s.slots[call.1]? = some ⟨c, false⟩ ∧ call.2.Bulk c.profile) :
    (s.callAll supply react calls).result = .ok () := by
  induction calls generalizing s with
  | nil => rfl
  | cons call calls ih =>
    obtain ⟨i, m⟩ := call
    obtain ⟨hi, hm, c, hslot, hbulk⟩ := hcalls (i, m) List.mem_cons_self
    obtain ⟨e, happly, hnotify⟩ := hbulk c rfl
    obtain ⟨hok, hlater⟩ := h.settle hi hslot hm happly
    have hreplays := settle_replays supply hreact hslot happly hnotify
    rw [callAll_cons_of_ok supply react hslot happly hnotify hok]
    refine ih hlater fun call hcall => ?_
    obtain ⟨hplace, hkind, d, hd, hbulk⟩ := hcalls call (List.mem_cons_of_mem _ hcall)
    refine ⟨hplace, hkind, _, by rw [hreplays.getElem?_slots, hd]; rfl, ?_⟩
    rwa [Change.run_profile]

end SinksHold

/-- **Sinks that guard what they call do not fail,** however far a load has come. -/
theorem Cautious.sinksHold (h : s.Cautious places) (supply : Supply) (depth : Nat) :
    SinksHold supply (Session.react supply depth) places s := by
  intro t ht i hi e
  have hkept := kept_cautious places
  have hcautious : t.Cautious places := by
    induction ht with
    | refl => exact h
    | acted _ _ _ _ _ ih => exact hkept.slots _ _ ih
    | @delivered t j e _ _ ih =>
      exact deliverOne_keeps hkept (react_keeps hkept supply depth) ih j e
  exact hcautious.deliverOne hi supply depth e

theorem replaces_of_mem_loadCalls :
    ∀ call ∈ s.loadCalls places snapshots, call.2.Replaces := by
  intro call hcall
  rcases List.mem_append.1 hcall with hclear | hload
  · obtain ⟨i, -, rfl⟩ := List.mem_map.1 hclear
    trivial
  · obtain ⟨snapshot, -, hcall⟩ := List.mem_filterMap.1 hload
    obtain ⟨t, -, rfl⟩ := Option.map_eq_some_iff.1 hcall
    trivial

/-- **Calls of a load, if no given change is being mutated:** each of them is let in. -/
theorem callable_of_mem_loadCalls (hdistinct : s.Distinct places)
    (htakes : s.Takes places snapshots)
    (hidle : ∀ i ∈ places, ∀ slot, s.slots[i]? = some slot → slot.mutating = false) :
    ∀ call ∈ s.loadCalls places snapshots, call.1 ∈ places ∧ call.2.Replaces ∧
      ∃ c, s.slots[call.1]? = some ⟨c, false⟩ ∧ call.2.Bulk c.profile := by
  intro call hcall
  have hplace := mem_places_of_mem_loadCalls hdistinct call hcall
  obtain ⟨c, hc, hbulk⟩ := bulk_of_mem_loadCalls hdistinct htakes call hcall
  obtain ⟨⟨c, mutating⟩, hslot, rfl⟩ := Option.map_eq_some_iff.1 hc
  cases hidle call.1 hplace _ hslot
  exact ⟨hplace, replaces_of_mem_loadCalls call hcall, c, hslot, hbulk⟩

/-! ## Acceptance -/

/-- **Which files are accepted,** and what becomes of one that is not. A text that is not JSON
counts for no file. -/
structure Acceptance (m : MemoryStorage) (filename : String) (s : Session) (places : List Nat)
    (d : Done Store.Loaded) : Prop where
  invalid : ∀ issues, d.result = .error (.storage (.invalid filename issues)) ↔
    ∃ v, (m.files.get? filename).bind Json.parse? = some v ∧
      (StateFile.check [] (some v)).result = .error issues
  loggingOnly : (∃ c, d.result = .error (.change (.loggingOnly c))) ↔
    ∃ v file, (m.files.get? filename).bind Json.parse? = some v ∧
      (StateFile.check [] (some v)).result = .ok file ∧
      ∃ t ∈ file.changes, t.hasEntries = true ∧ ∃ i ∈ places, ∃ c, s.change? i = some c ∧
        c.profile.loggingOnly = true ∧ t.changeId = c.idNumber
  only : ∀ f, d.result = .error f →
    (∃ issues, f = .storage (.invalid filename issues)) ∨ ∃ c, f = .change (.loggingOnly c)
  untouched : ∀ f, d.result = .error f → d.session = s ∧ d.journal = []

/-- A snapshot of an accepted file is refused by a logging-only change alone. -/
theorem checkSnapshot_of_accepted {v : Json} {file : StateFile} {t : Snapshot}
    (hfile : (StateFile.check [] (some v)).result = .ok file) (ht : t ∈ file.changes)
    (hid : t.changeId = c.idNumber) :
    c.checkSnapshot t =
      if t.hasEntries && c.profile.loggingOnly then .error (.loggingOnly c) else .ok () :=
  have ⟨_, hfold, hempty⟩ := StateFile.exists_fold_of_accepted hfile t ht
  Change.checkSnapshot_of_fold hid hfold hempty

namespace Acceptance

variable {memory : MemoryStorage} {d : Done Store.Loaded}

/-- What is read comes from a file that is accepted, if there is anything. -/
theorem exists_file {t : Snapshot} (hread : Store.read (.memory memory) filename = .ok snapshots)
    (ht : t ∈ snapshots) :
    ∃ v file, (memory.files.get? filename).bind Json.parse? = some v ∧
      (StateFile.check [] (some v)).result = .ok file ∧ t ∈ file.changes := by
  rw [Store.read_memory] at hread
  split at hread
  · cases hread
    cases ht
  · rename_i v hv
    split at hread
    · rename_i file hfile
      cases hread
      exact ⟨v, file, hv, hfile, ht⟩
    · cases hread

/-- And what is accepted is what is read. -/
theorem read_eq {v : Json} (hv : (memory.files.get? filename).bind Json.parse? = some v) :
    Store.read (.memory memory) filename =
      match (StateFile.check [] (some v)).result with
      | .ok file => .ok file.changes
      | .error issues => .error (.invalid filename issues) := by
  have hread := Store.read_memory memory filename
  rw [hv] at hread
  exact hread

/-- A file that was read is not invalid. -/
theorem not_invalid_of_read (hread : Store.read (.memory memory) filename = .ok snapshots)
    (issues : List Issue) : ¬ ∃ v, (memory.files.get? filename).bind Json.parse? = some v ∧
      (StateFile.check [] (some v)).result = .error issues := by
  rintro ⟨v, hv, hissues⟩
  rw [read_eq hv, hissues] at hread
  cases hread

/-- What cannot be read is a file in which the check finds something wrong. -/
theorem exists_issues {error : StorageError}
    (hread : Store.read (.memory memory) filename = .error error) :
    ∃ v issues, (memory.files.get? filename).bind Json.parse? = some v ∧
      (StateFile.check [] (some v)).result = .error issues ∧ error = .invalid filename issues := by
  rw [Store.read_memory] at hread
  split at hread
  · cases hread
  · rename_i v hv
    split at hread
    · cases hread
    · rename_i issues hissues
      cases hread
      exact ⟨v, issues, hv, hissues, rfl⟩

/-- The check finds something wrong. -/
theorem of_read_error {error : StorageError}
    (hread : Store.read (.memory memory) filename = .error error) :
    Acceptance memory filename s places (.fail s (.storage error)) := by
  obtain ⟨v, issues, hv, hissues, rfl⟩ := exists_issues hread
  exact {
    invalid := by
      intro other
      constructor
      · intro h
        cases h
        exact ⟨v, hv, hissues⟩
      · rintro ⟨w, hw, hother⟩
        rw [hv] at hw
        cases hw
        rw [hissues] at hother
        cases hother
        rfl
    loggingOnly := by
      constructor
      · rintro ⟨c, hc⟩
        cases hc
      · rintro ⟨w, file, hw, hfile, -⟩
        rw [hv] at hw
        cases hw
        rw [hissues] at hfile
        cases hfile
    only := by
      intro f hf
      cases hf
      exact Or.inl ⟨issues, rfl⟩
    untouched := fun _ _ => ⟨rfl, rfl⟩ }

/-- A change refuses its snapshot. -/
theorem of_plan_error {error : ChangeError} (hdistinct : s.Distinct places)
    (hread : Store.read (.memory memory) filename = .ok snapshots)
    (hplan : Store.plan (s.targets places) snapshots = .error error) :
    Acceptance memory filename s places (.fail s (.change error)) := by
  obtain ⟨t, ht, target, htarget, hcheck⟩ := Store.plan_eq_error hplan
  obtain ⟨⟨hkey, hchange⟩, hid⟩ := hdistinct.target?_eq_some_iff.1 htarget
  obtain ⟨v, file, hv, hfile, hmem⟩ := exists_file hread ht
  -- the file was accepted, so the refusal is that of a logging-only change
  rw [checkSnapshot_of_accepted hfile hmem hid] at hcheck
  split at hcheck
  · rename_i hrefused
    cases hcheck
    obtain ⟨hentries, hlogging⟩ := Bool.and_eq_true_iff.1 hrefused
    exact {
      invalid := fun issues => {
        mp := fun h => by cases h
        mpr := fun h => absurd h (not_invalid_of_read hread issues) }
      loggingOnly := {
        mp := fun _ => ⟨v, file, hv, hfile, t, hmem, hentries, target.key, hkey, target.change,
          hchange, hlogging, hid⟩
        mpr := fun _ => ⟨_, rfl⟩ }
      only := by
        intro f hf
        cases hf
        exact Or.inr ⟨_, rfl⟩
      untouched := fun _ _ => ⟨rfl, rfl⟩ }
  · cases hcheck

/-- Every change takes its snapshots. -/
theorem of_takes {loaded : Store.Loaded}
    (hread : Store.read (.memory memory) filename = .ok snapshots)
    (htakes : s.Takes places snapshots) (hok : d.result = .ok loaded) :
    Acceptance memory filename s places d := by
  have hnever : ∀ f, d.result ≠ .error f := by
    intro f hf
    rw [hok] at hf
    cases hf
  exact {
    invalid := fun issues => {
      mp := fun h => absurd h (hnever _)
      mpr := fun h => absurd h (not_invalid_of_read hread issues) }
    loggingOnly := by
      constructor
      · rintro ⟨c, hc⟩
        exact absurd hc (hnever _)
      · rintro ⟨v, file, hv, hfile, t, ht, hentries, i, hi, c, hc, hlogging, hid⟩
        rw [read_eq hv, hfile] at hread
        cases hread
        have htaken := htakes t ht i hi c hc hid
        rw [checkSnapshot_of_accepted hfile ht hid, hentries, hlogging] at htaken
        cases htaken
    only := fun f hf => absurd hf (hnever f)
    untouched := fun f hf => absurd hf (hnever f) }

end Acceptance

/-- **A load accepts every file that its check accepts,** unless there is an entry in it for a
logging-only change; it accepts a missing file and a text that is not JSON. A file that it does not
accept leaves everything as it was. -/
theorem load_accepts (supply : Supply) (depth : Nat) (places : List Nat) (filename : String)
    (s : Session) {m : MemoryStorage} (hmemory : s.storage = .memory m)
    (hdistinct : s.Distinct places)
    (hidle : ∀ i ∈ places, ∀ slot, s.slots[i]? = some slot → slot.mutating = false)
    (hsinks : SinksHold supply (Session.react supply depth) places s) :
    Acceptance m filename s places
      (s.load supply (Session.react supply depth) places filename) := by
  cases hread : Store.read (.memory m) filename with
  | error error =>
    have hload : s.load supply (Session.react supply depth) places filename =
        .fail s (.storage error) := by
      unfold load
      rw [hmemory, hread]
    rw [hload]
    exact .of_read_error hread
  | ok snapshots =>
    cases hplan : Store.plan (s.targets places) snapshots with
    | error error =>
      have hload : s.load supply (Session.react supply depth) places filename =
          .fail s (.change error) := by
        unfold load
        rw [hmemory, hread]
        dsimp only
        rw [Store.targets_of_nodup hdistinct.nodup_targets, hplan]
      rw [hload]
      exact .of_plan_error hdistinct hread hplan
    | ok plan =>
      have htakes := hdistinct.takes_of_plan hplan
      have hcalls := callable_of_mem_loadCalls hdistinct htakes hidle
      have hok : (s.load supply (Session.react supply depth) places filename).result =
          .ok (s.loadedAt places snapshots) := by
        rw [load_eq_callAll supply _ hdistinct (hmemory ▸ hread) htakes, Done.map,
          hsinks.callAll (react_sound supply depth) hcalls]
        rfl
      exact .of_takes hread htakes hok

/-- With a sink of the first change that clears it and then fails, both guarded, when it first hears
of something, and with the events of the second change going to a file. -/
def waryCrowd : Session :=
  crowd { change := aged two } [
    { sink := some (.script [] [[{ command := .clearOverrides 0, guarded := true },
        { command := .raise "again", guarded := true }]]) },
    { sink := some (.file Logger.defaultFilename) }] []

theorem cautious_waryCrowd : waryCrowd.Cautious [0, 1] where
  memory := ⟨_, rfl⟩
  loggers := by
    intro i _ logger hlogger
    obtain rfl | rfl := List.mem_pair.1 (List.mem_of_getElem? hlogger)
    · refine ⟨rfl, fun reaction hreaction step hstep => ?_⟩
      cases List.mem_singleton.1 hreaction
      obtain rfl | rfl := List.mem_pair.1 hstep
      · rfl
      · rfl
    · trivial

theorem waryCrowd_accepts :
    ∃ m, waryCrowd.storage = .memory m ∧ waryCrowd.Distinct [0, 1] ∧
    (∀ i ∈ [0, 1], ∀ slot, waryCrowd.slots[i]? = some slot → slot.mutating = false) ∧
    SinksHold default (Session.react default 1) [0, 1] waryCrowd ∧
    Acceptance m Store.defaultFilename waryCrowd [0, 1]
      (waryCrowd.load default (Session.react default 1) [0, 1] Store.defaultFilename) := by
  have hidle : ∀ i ∈ [0, 1], ∀ slot, waryCrowd.slots[i]? = some slot → slot.mutating = false := by
    intro i _ slot hslot
    obtain rfl | rfl := List.mem_pair.1 (List.mem_of_getElem? hslot)
    · rfl
    · rfl
  have hsinks := cautious_waryCrowd.sinksHold default 1
  exact ⟨_, rfl, distinct_crowd _ _ rfl, hidle, hsinks,
    load_accepts default 1 [0, 1] Store.defaultFilename waryCrowd rfl (distinct_crowd _ _ rfl) hidle
      hsinks⟩

end Session

end ChangeGate
