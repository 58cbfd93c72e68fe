import ChangeGate.Proofs.Session.Calls
import ChangeGate.Proofs.Session.Restart
/-!
# Loads

A load that gets past the checks is a list of calls (`Session.loadCalls`): every change is cleared,
and then each snapshot goes to the change of its id. If all of them are made, a change forgets what
it had and has what its own snapshots bring, merged in the order of the file (`load_replaces`). If
one fails, those before it were made and those after it were not (`load_stopped`): nothing is taken
back.
-/

namespace ChangeGate

namespace Session

/-- **The changes at some places have distinct ids.** -/
def Distinct (s : Session) (places : List Nat) : Prop :=
  ((places.filterMap s.change?).map (·.profile.id)).Nodup

/-- The ids of the changes at some places. -/
def idsAt (s : Session) (places : List Nat) : List Number :=
  (places.filterMap s.change?).map (·.idNumber)

/-- **Every snapshot is taken by the given change of its id,** if there is one. -/
def Takes (s : Session) (places : List Nat) (snapshots : List Snapshot) : Prop :=
  ∀ snapshot ∈ snapshots, ∀ i ∈ places, ∀ c, s.change? i = some c →
    snapshot.changeId = c.idNumber → c.checkSnapshot snapshot = .ok ()

/-- **The calls of a load,** in order. -/
def loadCalls (s : Session) (places : List Nat) (snapshots : List Snapshot) :
    List (Nat × Mutation) :=
  ((s.targets places).map (·.key)).map (fun i => (i, .clearOverrides)) ++
    snapshots.filterMap fun snapshot =>
      (Store.target? (s.targets places) snapshot.changeId).map fun t =>
        (t.key, .loadOverrides snapshot)

/-- **The outcome of a load:** the ids in the file, with and without a given change. -/
def loadedAt (s : Session) (places : List Nat) (snapshots : List Snapshot) : Store.Loaded where
  loaded := (snapshots.filter fun t => t.changeId ∈ s.idsAt places).map (·.changeId)
  unknown := (snapshots.filter fun t => t.changeId ∉ s.idsAt places).map (·.changeId)

variable {supply : Supply} {react : Reactor} {s : Session} {places : List Nat}
  {filename : String} {snapshots : List Snapshot} {i : Nat} {c : Change}

/-! ## Targets -/

namespace Distinct

theorem nodup_targets (h : s.Distinct places) :
    ((s.targets places).map (·.change.profile.id)).Nodup := by
  have hids : (s.targets places).map (·.change.profile.id) =
      (places.filterMap s.change?).map (·.profile.id) := by
    rw [← Restart.map_change_targets, List.map_map]
    rfl
  rw [hids]
  exact h

theorem nodup_keys (h : s.Distinct places) : ((s.targets places).map (·.key)).Nodup := by
  have hnodup := h.nodup_targets
  rw [List.Nodup, List.pairwise_map] at hnodup ⊢
  refine hnodup.imp_of_mem fun {t u} ht hu hne hkey => hne ?_
  have htc := (Restart.mem_targets.1 ht).2
  have huc := (Restart.mem_targets.1 hu).2
  rw [hkey, huc] at htc
  rw [Option.some.inj htc]

theorem target?_eq_some_iff (h : s.Distinct places) {t : Store.Target Nat} {id : Number} :
    Store.target? (s.targets places) id = some t ↔
      (t.key ∈ places ∧ s.change? t.key = some t.change) ∧ id = t.change.idNumber := by
  rw [Store.target?_eq_some_iff h.nodup_targets, Restart.mem_targets]

/-- **The target of an id is at a place** exactly if the change there has that id. -/
theorem key_target? (h : s.Distinct places) (hi : i ∈ places) (hc : s.change? i = some c)
    (id : Number) :
    (∃ t, Store.target? (s.targets places) id = some t ∧ t.key = i) ↔ id = c.idNumber := by
  constructor
  · rintro ⟨t, ht, rfl⟩
    obtain ⟨⟨-, hchange⟩, hid⟩ := h.target?_eq_some_iff.1 ht
    rw [hc] at hchange
    cases hchange
    exact hid
  · rintro rfl
    exact ⟨⟨i, c⟩, h.target?_eq_some_iff.2 ⟨⟨hi, hc⟩, rfl⟩, rfl⟩

theorem isSome_target? (h : s.Distinct places) (id : Number) :
    (Store.target? (s.targets places) id).isSome = decide (id ∈ s.idsAt places) := by
  rw [Bool.eq_iff_iff, Option.isSome_iff_exists, decide_eq_true_iff, idsAt, List.mem_map]
  constructor
  · rintro ⟨t, ht⟩
    obtain ⟨⟨hkey, hchange⟩, rfl⟩ := h.target?_eq_some_iff.1 ht
    exact ⟨t.change, List.mem_filterMap.2 ⟨t.key, hkey, hchange⟩, rfl⟩
  · rintro ⟨c, hc, rfl⟩
    obtain ⟨i, hi, hchange⟩ := List.mem_filterMap.1 hc
    exact ⟨⟨i, c⟩, h.target?_eq_some_iff.2 ⟨⟨hi, hchange⟩, rfl⟩⟩

end Distinct

/-- **Where there is a plan, every snapshot is taken.** -/
theorem Distinct.takes_of_plan (h : s.Distinct places) {plan : Store.Plan Nat}
    (hplan : Store.plan (s.targets places) snapshots = .ok plan) : s.Takes places snapshots := by
  intro snapshot hsnapshot i hi c hc hid
  have htarget : Store.target? (s.targets places) snapshot.changeId = some ⟨i, c⟩ :=
    h.target?_eq_some_iff.2 ⟨⟨hi, hc⟩, hid⟩
  exact Store.checked_of_plan hplan snapshot hsnapshot ⟨i, c⟩ htarget

/-! ## The calls -/

/-- The items that have a partner, and nothing of the partners. -/
theorem filterMap_partner {α β γ : Type} (partner? : α → Option β) (f : α → γ) (items : List α) :
    (items.filterMap fun item => (partner? item).map fun _ => f item) =
      (items.filter fun item => (partner? item).isSome).map f := by
  induction items with
  | nil => rfl
  | cons item items ih => cases h : partner? item <;> simp [h, ih]

/-- **A load that gets past the checks is its calls.** -/
theorem load_eq_callAll (supply : Supply) (react : Reactor) (hdistinct : s.Distinct places)
    (hread : Store.read s.storage filename = .ok snapshots) (htakes : s.Takes places snapshots) :
    s.load supply react places filename =
      (s.callAll supply react (s.loadCalls places snapshots)).map fun _ =>
        s.loadedAt places snapshots := by
  have hchecked : ∀ snapshot ∈ snapshots, ∀ t,
      Store.target? (s.targets places) snapshot.changeId = some t →
        t.change.checkSnapshot snapshot = .ok () := by
    intro snapshot hsnapshot t ht
    obtain ⟨⟨hkey, hchange⟩, hid⟩ := hdistinct.target?_eq_some_iff.1 ht
    exact htakes snapshot hsnapshot t.key hkey t.change hchange hid
  have hloaded : s.loadedAt places snapshots = Store.Plan.loaded {
      matched := snapshots.filterMap fun snapshot =>
        (Store.target? (s.targets places) snapshot.changeId).map fun t => (t, snapshot)
      unknown := (snapshots.filter fun snapshot =>
        (Store.target? (s.targets places) snapshot.changeId).isNone).map (·.changeId) } := by
    rw [Store.Plan.loaded, List.map_filterMap, loadedAt]
    simp only [Option.map_map, Function.comp_def, filterMap_partner, hdistinct.isSome_target?,
      ← Option.not_isSome, decide_not]
  unfold load
  rw [hread]
  dsimp only
  rw [Store.targets_of_nodup hdistinct.nodup_targets, Store.plan_of_checked hchecked]
  dsimp only
  rw [clearAll_eq_callAll, loadCalls, callAll_append, Done.map_next, ← hloaded]
  congr 1
  funext _ t
  rw [loadAll_eq_callAll, List.map_map, List.map_filterMap]
  simp only [Option.map_map, Function.comp_def]

/-- Of calls at different places one is at each. -/
theorem callsOf_map {keys : List Nat} (hkeys : keys.Nodup) (hi : i ∈ keys) (m : Mutation) :
    callsOf i (keys.map fun key => (key, m)) = [m] := by
  induction keys with
  | nil => cases hi
  | cons key keys ih =>
    rw [List.nodup_cons] at hkeys
    rw [List.map_cons, ← List.singleton_append, callsOf_append]
    by_cases hkey : key = i
    · subst hkey
      have hnone : callsOf key (keys.map fun key => (key, m)) = [] := by
        refine List.filterMap_eq_nil_iff.2 fun call hcall => ?_
        obtain ⟨other, hother, rfl⟩ := List.mem_map.1 hcall
        have hne : other ≠ key := fun heq => hkeys.1 (heq ▸ hother)
        exact if_neg hne
      rw [hnone]
      simp [callsOf]
    · have hlater := ih hkeys.2 ((List.mem_cons.1 hi).resolve_left fun heq => hkey heq.symm)
      rw [hlater]
      simp [callsOf, hkey]

/-- **What a load calls of a change:** a clear, and a load of each of its snapshots. -/
theorem callsOf_loadCalls (hdistinct : s.Distinct places) (hi : i ∈ places)
    (hc : s.change? i = some c) (snapshots : List Snapshot) :
    callsOf i (s.loadCalls places snapshots) =
      .clearOverrides ::
        (snapshots.filter fun t => t.changeId = c.idNumber).map .loadOverrides := by
  have hkey : i ∈ (s.targets places).map (·.key) :=
    List.mem_map.2 ⟨⟨i, c⟩, Restart.mem_targets.2 ⟨hi, hc⟩, rfl⟩
  rw [loadCalls, callsOf_append, callsOf_map hdistinct.nodup_keys hkey, List.singleton_append]
  congr 1
  rw [callsOf, List.filterMap_filterMap]
  induction snapshots with
  | nil => rfl
  | cons snapshot snapshots ih =>
    have hiff := hdistinct.key_target? hi hc snapshot.changeId
    rw [List.filterMap_cons, List.filter_cons, ih]
    by_cases hid : snapshot.changeId = c.idNumber
    · obtain ⟨t, ht, hkey⟩ := hiff.2 hid
      simp [ht, hkey, decide_eq_true hid]
    · have hother : ∀ t, Store.target? (s.targets places) snapshot.changeId = some t →
          t.key ≠ i := fun t ht hkey => hid (hiff.1 ⟨t, ht, hkey⟩)
      cases ht : Store.target? (s.targets places) snapshot.changeId with
      | none => simp [hid]
      | some t => simp [hid, hother t ht]

/-- Every change takes the calls of such a load. -/
theorem bulk_of_mem_loadCalls (hdistinct : s.Distinct places) (htakes : s.Takes places snapshots) :
    ∀ call ∈ s.loadCalls places snapshots,
      ∃ c, s.change? call.1 = some c ∧ call.2.Bulk c.profile := by
  intro call hcall
  rcases List.mem_append.1 hcall with hclear | hload
  · obtain ⟨i, hi, rfl⟩ := List.mem_map.1 hclear
    obtain ⟨t, ht, rfl⟩ := List.mem_map.1 hi
    exact ⟨t.change, (Restart.mem_targets.1 ht).2, Mutation.bulk_clearOverrides _⟩
  · obtain ⟨snapshot, hsnapshot, hcall⟩ := List.mem_filterMap.1 hload
    obtain ⟨t, ht, rfl⟩ := Option.map_eq_some_iff.1 hcall
    obtain ⟨⟨hkey, hchange⟩, hid⟩ := hdistinct.target?_eq_some_iff.1 ht
    obtain ⟨maps, hmaps⟩ := Change.checkSnapshot_eq_ok_iff.1
      (htakes snapshot hsnapshot t.key hkey t.change hchange hid)
    exact ⟨t.change, hchange, Mutation.bulk_loadOverrides hmaps⟩

/-- They are calls of the given changes. -/
theorem mem_places_of_mem_loadCalls (hdistinct : s.Distinct places) :
    ∀ call ∈ s.loadCalls places snapshots, call.1 ∈ places := by
  intro call hcall
  rcases List.mem_append.1 hcall with hclear | hload
  · obtain ⟨i, hi, rfl⟩ := List.mem_map.1 hclear
    obtain ⟨t, ht, rfl⟩ := List.mem_map.1 hi
    exact (Restart.mem_targets.1 ht).1
  · obtain ⟨snapshot, -, hcall⟩ := List.mem_filterMap.1 hload
    obtain ⟨t, ht, rfl⟩ := Option.map_eq_some_iff.1 hcall
    exact (hdistinct.target?_eq_some_iff.1 ht).1.1

/-- A load that succeeds has read the file and got past the checks. -/
theorem takes_of_load {loaded : Store.Loaded} (hdistinct : s.Distinct places)
    (hok : (s.load supply react places filename).result = .ok loaded) :
    ∃ snapshots, Store.read s.storage filename = .ok snapshots ∧ s.Takes places snapshots := by
  unfold load at hok
  split at hok
  · cases hok
  · rename_i snapshots hread
    dsimp only at hok
    split at hok
    · cases hok
    · rename_i plan hplan
      rw [Store.targets_of_nodup hdistinct.nodup_targets] at hplan
      exact ⟨snapshots, hread, hdistinct.takes_of_plan hplan⟩

/-- What a change has after a clear and loads of some of its own snapshots. -/
theorem run_calls (htakes : s.Takes places snapshots) (hi : i ∈ places)
    (hc : s.change? i = some c) {own : List Snapshot}
    (hown : ∀ t ∈ own, t ∈ snapshots.filter fun t => t.changeId = c.idNumber) :
    ∃ maps, OverrideMaps.empty.mergeAll own = .ok maps ∧
      c.run (.clearOverrides :: own.map .loadOverrides) = { c with maps } := by
  refine Change.run_clear_loads fun t ht => ?_
  obtain ⟨hmem, hid⟩ := List.mem_filter.1 (hown t ht)
  exact Change.checkSnapshot_eq_ok_iff.1 (htakes t hmem i hi c hc (of_decide_eq_true hid))

/-- **A load that succeeds replaces what there was.** Whatever overrides a change had, it has what
the snapshots of its id bring, merged in the order of the file. The ids of the file are reported by
whether a given change has them, and no listener is told. -/
theorem load_replaces (supply : Supply) (depth : Nat) (places : List Nat) (filename : String)
    (s : Session) {loaded : Store.Loaded} (hdistinct : s.Distinct places)
    (hsilent : s.Silent places)
    (hok : (s.load supply (Session.react supply depth) places filename).result = .ok loaded) :
    ∃ snapshots, Store.read s.storage filename = .ok snapshots ∧
      (∀ i ∈ places, ∀ c, s.change? i = some c → ∃ maps,
        OverrideMaps.empty.mergeAll (snapshots.filter fun t => t.changeId = c.idNumber) =
          .ok maps ∧
        (s.load supply (Session.react supply depth) places filename).session.change? i =
          some { c with maps }) ∧
      loaded = s.loadedAt places snapshots ∧
      ∀ i listener package reaction, .notified i listener package reaction ∉
        (s.load supply (Session.react supply depth) places filename).journal := by
  obtain ⟨snapshots, hread, htakes⟩ := takes_of_load hdistinct hok
  rw [load_eq_callAll supply _ hdistinct hread htakes] at hok ⊢
  obtain ⟨made, later, hcut⟩ := callAll_cut supply (react_sound supply depth)
    (bulk_of_mem_loadCalls hdistinct htakes)
  obtain ⟨_, hresult, hloaded⟩ := Done.map_eq_ok hok
  -- all calls were made, and nothing else was let in
  have hmade : s.loadCalls places snapshots = made := by
    rw [hcut.split, hcut.completed hresult, List.append_nil]
  have halone := hcut.alone places (react_silent supply depth) hsilent
    (mem_places_of_mem_loadCalls hdistinct)
  have hreplays : Replays s
      (s.callAll supply (Session.react supply depth) (s.loadCalls places snapshots)).journal
      (s.callAll supply (Session.react supply depth) (s.loadCalls places snapshots)).session :=
    callAll_replays (react_sound supply depth) _ s
  refine ⟨snapshots, hread, fun i hi c hc => ?_, hloaded.symm, halone.untold⟩
  have hopened := halone.opened i
  rw [← hmade, callsOf_loadCalls hdistinct hi hc] at hopened
  obtain ⟨maps, hmaps, hrun⟩ := run_calls htakes hi hc fun _ ht => ht
  refine ⟨maps, hmaps, ?_⟩
  have hchange := hreplays.change? i
  rw [hc, hopened, Option.map_some, hrun] at hchange
  exact hchange

theorem eq_ok_of_toOption {ε α : Type} {x : Except ε α} {a : α} (h : x.toOption = some a) :
    x = .ok a := by
  cases x with
  | error e => cases h
  | ok b =>
    cases h
    rfl

theorem exists_error_of_toOption {ε α : Type} {x : Except ε α} (h : x.toOption = none) :
    ∃ e, x = .error e := by
  cases x with
  | error e => exact ⟨e, rfl⟩
  | ok a => cases h

def two : SafeInt := ⟨2, by decide, by decide⟩

def three : SafeInt := ⟨3, by decide, by decide⟩

/-- A state file in which one id comes twice, another one is of no change, and the categories of a
snapshot overlap. -/
def crowded : List Snapshot := [
  { changeId := .ofSafeInt .one
    raw := some [.ofOverride "app" ⟨some two, none, true, by simp⟩]
    validated := some [⟨"app", false⟩, ⟨"lib", false⟩]
    deferred := some [⟨"lib", true⟩] },
  { changeId := .ofSafeInt three, validated := some [⟨"app", true⟩] },
  { changeId := .ofSafeInt .one, raw := some [.ofOverride "app" (.unconditional false)] }]

/-- A change with an override of its own. -/
def aged (id : SafeInt) : Change :=
  Change.after { profile := ⟨id, none, none, false, false, none, true⟩ }
    (.setRawOverride "old" (.unconditional true) .deferred none)

theorem aged_reachable (id : SafeInt) : (aged id).Reachable fun _ => True := by
  refine .mutated (.defined (d := {
    id := .ofSafeInt id
    overridable := true }) ?_) trivial
  simp [Change.ofDefinition, Definition.profile?, Definition.gate]

/-- Such a change and another one, and a storage with that file. -/
def crowd (second : Slot) (loggers : List Logger) (listeners : List Listener) : Session where
  slots := [{ change := aged .one }, second]
  loggers
  listeners
  storage := ((Storage.memory {}).writeJson Store.defaultFilename (StateFile.toJson ⟨crowded⟩)).1

section Crowd

variable {second : Slot} (loggers : List Logger) (listeners : List Listener)

theorem distinct_crowd (hprofile : second.change.profile = (aged two).profile) :
    (crowd second loggers listeners).Distinct [0, 1] := by
  change ([(aged .one).profile.id, second.change.profile.id]).Nodup
  rw [hprofile, aged, aged, Change.after_profile, Change.after_profile]
  decide

theorem read_crowd : Store.read (crowd second loggers listeners).storage Store.defaultFilename =
    .ok crowded := by
  have hwritten : ∀ t ∈ crowded, t.Written := by
    simp only [crowded, List.forall_mem_cons]
    refine ⟨⟨⟨_, rfl⟩, ?_⟩, ⟨⟨_, rfl⟩, ?_⟩, ⟨⟨_, rfl⟩, ?_⟩, List.forall_mem_nil _⟩
    · intro e he
      exact ⟨_, _, List.mem_singleton.1 he⟩
    · exact List.forall_mem_nil _
    · intro e he
      exact ⟨_, _, List.mem_singleton.1 he⟩
  have hwrite : (Storage.memory {}).writeJson Store.defaultFilename (StateFile.toJson ⟨crowded⟩) =
      ((crowd second loggers listeners).storage, .ok ()) := rfl
  exact Store.read_of_written hwritten (by decide) hwrite

theorem takes_crowd (hprofile : second.change.profile = (aged two).profile) :
    (crowd second loggers listeners).Takes [0, 1] crowded := by
  have htaken : ∀ t ∈ crowded, ∀ c ∈ [aged .one, aged two], t.changeId = c.idNumber →
      (c.foldSnapshot t).toOption.isSome = true := by
    decide +kernel
  intro t ht i _ c hc hid
  -- it takes no more than the profile of a change to tell
  obtain ⟨d, hd, hsame⟩ : ∃ d ∈ [aged .one, aged two], c.profile = d.profile := by
    obtain ⟨slot, hslot, rfl⟩ := Option.map_eq_some_iff.1 hc
    obtain rfl | rfl := List.mem_pair.1 (List.mem_of_getElem? hslot)
    · exact ⟨aged .one, List.mem_cons_self, rfl⟩
    · exact ⟨aged two, List.mem_cons_of_mem _ List.mem_cons_self, hprofile⟩
  rw [Change.idNumber, hsame] at hid
  obtain ⟨maps, hmaps⟩ := Option.isSome_iff_exists.1 (htaken t ht d hd hid)
  exact Change.checkSnapshot_eq_ok_iff.2
    ⟨maps, Change.foldSnapshot_of_profile hsame (eq_ok_of_toOption hmaps)⟩

end Crowd

/-- With the events of the first change going to a file, and those of the second one nowhere. -/
def quietCrowd : Session :=
  crowd { change := aged two } [{ sink := some (.file Logger.defaultFilename) }, {}] []

theorem silent_quietCrowd : quietCrowd.Silent [0, 1] := by
  intro i _ logger hlogger
  obtain rfl | rfl := List.mem_pair.1 (List.mem_of_getElem? hlogger)
  · trivial
  · trivial

theorem quietCrowd_load :
    (quietCrowd.load default (Session.react default 0) [0, 1] Store.defaultFilename).result =
      .ok ⟨[.ofSafeInt .one, .ofSafeInt .one], [.ofSafeInt three]⟩ := by
  unfold quietCrowd
  rw [load_eq_callAll default _ (distinct_crowd _ _ rfl) (read_crowd _ _)
    (takes_crowd _ _ rfl)]
  exact eq_ok_of_toOption (by decide +kernel)

theorem quietCrowd_replaces :
    quietCrowd.Distinct [0, 1] ∧ quietCrowd.Silent [0, 1] ∧
    (quietCrowd.load default (Session.react default 0) [0, 1] Store.defaultFilename).result =
      .ok ⟨[.ofSafeInt .one, .ofSafeInt .one], [.ofSafeInt three]⟩ ∧
    ∃ snapshots, Store.read quietCrowd.storage Store.defaultFilename = .ok snapshots ∧
      (∀ i ∈ [0, 1], ∀ c, quietCrowd.change? i = some c → ∃ maps,
        OverrideMaps.empty.mergeAll (snapshots.filter fun t => t.changeId = c.idNumber) =
          .ok maps ∧
        (quietCrowd.load default (Session.react default 0) [0, 1]
          Store.defaultFilename).session.change? i = some { c with maps }) ∧
      ⟨[.ofSafeInt .one, .ofSafeInt .one], [.ofSafeInt three]⟩ =
        quietCrowd.loadedAt [0, 1] snapshots ∧
      ∀ i listener package reaction, .notified i listener package reaction ∉
        (quietCrowd.load default (Session.react default 0) [0, 1]
          Store.defaultFilename).journal :=
  ⟨distinct_crowd _ _ rfl, silent_quietCrowd, quietCrowd_load,
    load_replaces default 0 [0, 1] Store.defaultFilename quietCrowd (distinct_crowd _ _ rfl)
      silent_quietCrowd quietCrowd_load⟩

/-! ## Loads that stop -/

/-- **A load that stopped on the way,** `made` being the calls that it got to make.

Each of them found no mutation of its change running and was let in. A change is what was let in
makes of it, and these calls are part of that, in their order; a change that was being mutated is as
it was. If the sinks do not call back, then these calls are all that was let in, and a change either
is as it was or has what the first few of its snapshots bring. -/
structure StoppedLoad (s : Session) (places : List Nat) (snapshots : List Snapshot)
    (made : List (Nat × Mutation)) (d : Done Store.Loaded) : Prop where
  idle : ∀ call ∈ made, ∃ c, s.slots[call.1]? = some ⟨c, false⟩
  change : ∀ i, d.session.change? i = (s.change? i).map (·.run (openedOf i d.journal))
  opened : ∀ i, (callsOf i made).Sublist (openedOf i d.journal)
  busy : ∀ (i : Nat) (c : Change),
    s.slots[i]? = some ⟨c, true⟩ → d.session.slots[i]? = some ⟨c, true⟩
  alone : s.Silent places → ∀ i, openedOf i d.journal = callsOf i made
  maps : s.Silent places → ∀ i ∈ places, ∀ c, s.change? i = some c →
    d.session.change? i = some c ∨ ∃ first rest maps,
      (snapshots.filter fun t => t.changeId = c.idNumber) = first ++ rest ∧
      OverrideMaps.empty.mergeAll first = .ok maps ∧ d.session.change? i = some { c with maps }

/-- **A load that gets past the checks and fails has stopped at one of its calls:** at the first
that found a mutation of its change running, or after the first on whose events the sink failed. It
fails for that reason, and takes nothing back. -/
theorem load_stopped (supply : Supply) (depth : Nat) (places : List Nat) (filename : String)
    (s : Session) {snapshots : List Snapshot} {f : Fault} (hdistinct : s.Distinct places)
    (hread : Store.read s.storage filename = .ok snapshots) (htakes : s.Takes places snapshots)
    (hfailed : (s.load supply (Session.react supply depth) places filename).result = .error f) :
    ∃ made later, s.loadCalls places snapshots = made ++ later ∧
      Stopped supply (Session.react supply depth) s made later f ∧
      StoppedLoad s places snapshots made
        (s.load supply (Session.react supply depth) places filename) := by
  rw [load_eq_callAll supply _ hdistinct hread htakes] at hfailed ⊢
  obtain ⟨made, later, hcut⟩ := callAll_cut supply (react_sound supply depth)
    (bulk_of_mem_loadCalls hdistinct htakes)
  have hreplays : Replays s
      (s.callAll supply (Session.react supply depth) (s.loadCalls places snapshots)).journal
      (s.callAll supply (Session.react supply depth) (s.loadCalls places snapshots)).session :=
    callAll_replays (react_sound supply depth) _ s
  have halone : s.Silent places → ∀ i, openedOf i
      (s.callAll supply (Session.react supply depth) (s.loadCalls places snapshots)).journal =
        callsOf i made := fun hsilent =>
    (hcut.alone places (react_silent supply depth) hsilent
      (mem_places_of_mem_loadCalls hdistinct)).opened
  refine ⟨made, later, hcut.split, hcut.stopped f (Done.map_eq_error hfailed), ?_⟩
  exact {
    idle := hcut.idle
    change := hreplays.change?
    opened := hcut.opened
    busy := fun i c hslot => hreplays.slots_of_mutating hslot
    alone := halone
    maps := by
      intro hsilent i hi c hc
      have hchange := hreplays.change? i
      rw [hc, halone hsilent i, Option.map_some] at hchange
      -- the calls of the change that were made are the first few of its calls
      have hcalls := callsOf_loadCalls hdistinct hi hc snapshots
      rw [hcut.split, callsOf_append, List.append_eq_cons_iff] at hcalls
      rcases hcalls with ⟨hnone, -⟩ | ⟨loads, hmade, hloads⟩
      · rw [hnone] at hchange
        exact Or.inl hchange
      · obtain ⟨first, rest, hown, hfirst, -⟩ := List.map_eq_append_iff.1 hloads
        have hmem : ∀ t ∈ first, t ∈ snapshots.filter fun t => t.changeId = c.idNumber :=
          fun t ht => hown ▸ List.mem_append_left rest ht
        obtain ⟨maps, hmaps, hrun⟩ := run_calls htakes hi hc hmem
        rw [hmade, ← hfirst, hrun] at hchange
        exact Or.inr ⟨first, rest, maps, hown, hmaps, hchange⟩ }

/-- With a sink of the second change that fails when it hears of a clear. -/
def brokenCrowd : Session :=
  crowd { change := aged two } [{}, { sink := some (.script [.cleared] []) }] []

theorem brokenCrowd_load :
    ∃ f, (brokenCrowd.load default (Session.react default 0) [0, 1] Store.defaultFilename).result =
      .error f := by
  unfold brokenCrowd
  rw [load_eq_callAll default _ (distinct_crowd _ _ rfl) (read_crowd _ _)
    (takes_crowd _ _ rfl)]
  exact exists_error_of_toOption (by decide +kernel)

theorem brokenCrowd_stopped :
    brokenCrowd.Distinct [0, 1] ∧
    Store.read brokenCrowd.storage Store.defaultFilename = .ok crowded ∧
    brokenCrowd.Takes [0, 1] crowded ∧
    ∃ f, (brokenCrowd.load default (Session.react default 0) [0, 1]
        Store.defaultFilename).result = .error f ∧
      ∃ made later, brokenCrowd.loadCalls [0, 1] crowded = made ++ later ∧
        Stopped default (Session.react default 0) brokenCrowd made later f ∧
        StoppedLoad brokenCrowd [0, 1] crowded made
          (brokenCrowd.load default (Session.react default 0) [0, 1] Store.defaultFilename) :=
  have ⟨f, hf⟩ := brokenCrowd_load
  ⟨distinct_crowd _ _ rfl, read_crowd _ _, takes_crowd _ _ rfl, f, hf,
    load_stopped default 0 [0, 1] Store.defaultFilename brokenCrowd (distinct_crowd _ _ rfl)
      (read_crowd _ _) (takes_crowd _ _ rfl) hf⟩

/-- **A mutation in the course of which a callback reacts,** `t` being the session that it finds. -/
def Reacts (s : Session) (i : Nat) (m : Mutation) (reaction : Reaction) (t : Session) : Prop :=
  ∀ supply react, ∃ package before later, (s.mutate supply react i m).journal =
    before ++ (react package reaction t).journal ++ later

/-- The second change, with a listener. -/
def heard : Change :=
  (aged two).after (.registerListener 0)

/-- What its listener is told of: the override that it has comes into effect. -/
def effected : Mutation :=
  .recheck (some "old") .allowed (some (.ofSafeInt .one))

/-- The reaction of the listener: to load the file into both changes. -/
def reload : Reaction :=
  [{ command := .load [0, 1] Store.defaultFilename }]

def reloading : Session :=
  crowd { change := heard } [] [{ name := "reload", reactions := [reload] }]

/-- What the listener finds: its change has been acted on, and is marked. -/
def reloaded : Session :=
  crowd { change := heard.after effected, mutating := true } [] [{ name := "reload" }]

theorem heard_reachable : heard.Reachable fun _ => True :=
  .mutated (aged_reachable two) trivial

theorem reloaded_profile : (heard.after effected).profile = (aged two).profile := by
  rw [heard, Change.after_profile, Change.after_profile]

theorem reloading_reacts : reloading.Reacts 1 effected reload reloaded := by
  have htold : (heard.apply effected).toOption.map (fun e => (e.notify, e.change.listener)) =
      some (some "old", some 0) := by
    decide +kernel
  cases happly : heard.apply effected with
  | error error =>
    rw [happly] at htold
    cases htold
  | ok e =>
    rw [happly] at htold
    obtain ⟨hnotify, hlistener⟩ := Prod.mk.inj (Option.some.inj htold)
    intro supply react
    have hslot : reloading.slots[1]? = some { change := heard } := rfl
    rw [mutate, hslot]
    dsimp only
    rw [if_neg Bool.false_ne_true, happly]
    dsimp only
    rw [hnotify, hlistener, reloaded, Change.after_of_ok happly]
    exact ⟨some "old", [_, _], _, rfl⟩

/-- **A load is not all or nothing.** It may be called by the listener of the second change, in the
middle of a mutation of that one. Then the first change is cleared and the clear of the second one
is refused, before any snapshot is loaded. -/
theorem not_load_all_or_nothing :
    ¬ ∀ (supply : Supply) (depth : Nat) (places : List Nat) (filename : String) (s t : Session)
        (i : Nat) (m : Mutation) (snapshots : List Snapshot) (f : Fault),
      s.Idle → (∀ c ∈ s.changes, c.Reachable fun _ => True) →
      s.Reacts i m [{ command := .load places filename }] t → t.Distinct places →
      Store.read t.storage filename = .ok snapshots → t.Takes places snapshots →
      (t.load supply (Session.react supply depth) places filename).result = .error f →
      (∀ i ∈ places, ((t.load supply (Session.react supply depth) places
        filename).session.change? i).map (·.maps) = (t.change? i).map (·.maps)) ∨
      ∀ i ∈ places, ∀ c, t.change? i = some c → ∃ maps,
        OverrideMaps.empty.mergeAll (snapshots.filter fun t => t.changeId = c.idNumber) =
          .ok maps ∧
        ((t.load supply (Session.react supply depth) places filename).session.change? i).map
          (·.maps) = some maps := by
  intro hall
  have hdistinct : reloaded.Distinct [0, 1] := distinct_crowd _ _ reloaded_profile
  have hread : Store.read reloaded.storage Store.defaultFilename = .ok crowded := read_crowd _ _
  have htakes : reloaded.Takes [0, 1] crowded := takes_crowd _ _ reloaded_profile
  have hload := load_eq_callAll default (Session.react default 0) hdistinct hread htakes
  obtain ⟨f, hf⟩ : ∃ f, (reloaded.load default (Session.react default 0) [0, 1]
      Store.defaultFilename).result = .error f := by
    rw [hload]
    exact exists_error_of_toOption (by decide +kernel)
  have hcleared : ((reloaded.load default (Session.react default 0) [0, 1]
      Store.defaultFilename).session.change? 0).map (·.maps) = some .empty := by
    rw [hload]
    decide +kernel
  have hidle : reloading.Idle := by
    intro slot hslot
    obtain rfl | rfl := List.mem_pair.1 hslot
    · rfl
    · rfl
  have hreachable : ∀ c ∈ reloading.changes, c.Reachable fun _ => True := by
    intro c hc
    obtain rfl | rfl := List.mem_pair.1 hc
    · exact aged_reachable .one
    · exact heard_reachable
  rcases hall default 0 [0, 1] Store.defaultFilename reloading reloaded 1 effected crowded f hidle
    hreachable reloading_reacts hdistinct hread htakes hf with hkept | hreplaced
  · have hsame := hkept 0 List.mem_cons_self
    rw [hcleared] at hsame
    revert hsame
    decide +kernel
  · obtain ⟨maps, hmaps, hloaded⟩ := hreplaced 0 List.mem_cons_self (aged .one) rfl
    rw [hcleared] at hloaded
    cases hloaded
    have hsome : (OverrideMaps.empty.mergeAll
        (crowded.filter fun t => t.changeId = (aged .one).idNumber)).toOption ≠ some .empty := by
      decide +kernel
    rw [hmaps] at hsome
    exact hsome rfl

end Session

end ChangeGate
