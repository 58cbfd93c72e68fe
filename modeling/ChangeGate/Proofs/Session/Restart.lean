import ChangeGate.Proofs.Session.Quiet
import ChangeGate.Proofs.Store.Load
import ChangeGate.Proofs.Store.Save
import Mathlib.Data.List.Nodup
import Mathlib.Data.List.Permutation
/-!
# Restarts

The overrides of some changes are saved, and later loaded into changes of the same definitions.
`perform_load_of_restart`: every change then has the maps of the one that was saved, whatever it
had before.

That nothing is lost or made up on the way depends on what a change can come to. A snapshot
without raw overrides is not saved, and a validated value is read as a raw override too; both
would show if a change could hold a value for a package without a raw override of it, and
`Change.Consistent` says that it cannot.
-/

namespace ChangeGate

/-- **A restart.** The sources, of distinct ids, were saved to a storage in memory. A session has
that storage, and changes with the profiles of the sources at some places, of which none is being
mutated and all have quiet loggers. -/
structure Restart (m : MemoryStorage) (filename : String) (sources : List Change) (s : Session)
    (places : List Nat) : Prop where
  reachable : ∀ c ∈ sources, c.Reachable Mutation.Named
  distinct : (sources.map (·.profile.id)).Nodup
  storage : s.storage = (Store.save (.memory m) filename sources).1
  nodup : places.Nodup
  idle : ∀ i ∈ places, ∃ c, s.slots[i]? = some ⟨c, false⟩
  same : ((places.filterMap s.change?).map (·.profile)).Perm (sources.map (·.profile))
  quiet : ∀ i ∈ places, ∀ logger, s.loggers[i]? = some logger → logger.Quiet

/-- What is saved of the changes is one text, wherever it is saved. -/
theorem Session.text_of_save {s : Session} {places : List Nat} {filename : String} {n : Nat}
    (h : (s.save places filename).result = .ok n) :
    n = (Store.snapshots (places.filterMap s.change?)).length ∧
      (s.save places filename).session.storage.readText filename =
        .ok (some (StateFile.toJson ⟨Store.snapshots (places.filterMap s.change?)⟩).indented) := by
  unfold Session.save at h ⊢
  dsimp only at h ⊢
  generalize hsave : Store.save s.storage filename (places.filterMap s.change?) = saved at h ⊢
  obtain ⟨written, outcome⟩ := saved
  cases outcome with
  | error e => cases h
  | ok k =>
    cases h
    obtain ⟨hwrite, hcount⟩ := Store.save_ok hsave
    exact ⟨hcount, Storage.readText_writeJson hwrite⟩

namespace Restart

variable {m : MemoryStorage} {filename : String} {sources : List Change} {s : Session}
  {places : List Nat}

theorem save_ok (m : MemoryStorage) (filename : String) (sources : List Change) :
    Store.save (.memory m) filename sources =
      ((Store.save (.memory m) filename sources).1, .ok (Store.snapshots sources).length) :=
  rfl

/-- **What was saved is what is read.** -/
theorem read (h : Restart m filename sources s places) :
    Store.read s.storage filename = .ok (Store.snapshots sources) := by
  rw [h.storage]
  exact Store.read_of_save_named (save_ok m filename sources)
    fun c hc _ => (h.reachable c hc).named

/-! ## Targets -/

theorem map_key_targets (h : Restart m filename sources s places) :
    (s.targets places).map (·.key) = places := by
  have hall : ∀ l : List Nat, (∀ i ∈ l, i ∈ places) → (s.targets l).map (·.key) = l := by
    intro l hl
    induction l with
    | nil => rfl
    | cons i l ih =>
      obtain ⟨c, hc⟩ := h.idle i (hl i List.mem_cons_self)
      have hchange : s.change? i = some c := by rw [Session.change?, hc]; rfl
      rw [Session.targets, List.filterMap_cons, hchange]
      exact congrArg (i :: ·) (ih fun j hj => hl j (List.mem_cons_of_mem _ hj))
  exact hall places fun _ hi => hi

theorem map_change_targets (s : Session) (places : List Nat) :
    (s.targets places).map (·.change) = places.filterMap s.change? := by
  rw [Session.targets, List.map_filterMap]
  congr 1
  funext i
  cases s.change? i <;> rfl

theorem profiles (h : Restart m filename sources s places) :
    ((s.targets places).map (·.change.profile)).Perm (sources.map (·.profile)) := by
  have hsame := h.same
  rwa [← map_change_targets, List.map_map] at hsame

theorem distinct_targets (h : Restart m filename sources s places) :
    ((s.targets places).map (·.change.profile.id)).Nodup := by
  have hids := (h.profiles.map (·.id)).nodup_iff
  rw [List.map_map, List.map_map] at hids
  exact hids.2 h.distinct

theorem targets (h : Restart m filename sources s places) :
    Store.targets (s.targets places) = s.targets places :=
  Store.targets_of_nodup h.distinct_targets

theorem mem_targets {t : Store.Target Nat} :
    t ∈ s.targets places ↔ t.key ∈ places ∧ s.change? t.key = some t.change := by
  rw [Session.targets, List.mem_filterMap]
  refine ⟨?_, fun ⟨hi, hc⟩ => ⟨t.key, hi, by rw [hc]; rfl⟩⟩
  rintro ⟨i, hi, ht⟩
  obtain ⟨c, hc, rfl⟩ := Option.map_eq_some_iff.1 ht
  exact ⟨hi, hc⟩

/-- The source of a target. -/
theorem exists_source (h : Restart m filename sources s places) {t : Store.Target Nat}
    (ht : t ∈ s.targets places) : ∃ source ∈ sources, source.profile = t.change.profile := by
  have hmem := h.profiles.mem_iff.1 (List.mem_map_of_mem (f := (·.change.profile)) ht)
  obtain ⟨source, hsource, hprofile⟩ := List.mem_map.1 hmem
  exact ⟨source, hsource, hprofile⟩

/-- The target of a source. -/
theorem exists_target (h : Restart m filename sources s places) {source : Change}
    (hsource : source ∈ sources) :
    ∃ t ∈ s.targets places, t.change.profile = source.profile := by
  have hmem := h.profiles.mem_iff.2 (List.mem_map_of_mem (f := (·.profile)) hsource)
  obtain ⟨t, ht, hprofile⟩ := List.mem_map.1 hmem
  exact ⟨t, ht, hprofile⟩

/-- Ids tell the sources apart. -/
theorem source_unique (h : Restart m filename sources s places) {c d : Change}
    (hc : c ∈ sources) (hd : d ∈ sources) (hid : c.profile.id = d.profile.id) : c = d :=
  List.inj_on_of_nodup_map h.distinct hc hd hid

/-! ## The plan -/

/-- **Every saved snapshot goes to the change of its source's profile,** which takes it. -/
theorem target_of_snapshot (h : Restart m filename sources s places) {source : Change}
    (hsource : source ∈ sources) {snapshot : Snapshot}
    (hsnapshot : source.snapshot? = some snapshot)
    {t : Store.Target Nat} (ht : t ∈ s.targets places)
    (hprofile : t.change.profile = source.profile) :
    Store.target? (s.targets places) snapshot.changeId = some t ∧
      t.change.foldSnapshot snapshot = .ok source.maps := by
  obtain ⟨-, hid, -⟩ := OverrideMaps.snapshot?_some hsnapshot
  have hidNumber : snapshot.changeId = t.change.idNumber := by
    rw [hid, Change.idNumber, Change.idNumber, hprofile]
  have hreachable := h.reachable source hsource
  rw [hidNumber]
  exact ⟨Store.target?_of_mem h.distinct_targets ht,
    Change.foldSnapshot_snapshot? hreachable.consistent hreachable.named hsnapshot hprofile⟩

theorem exists_plan (h : Restart m filename sources s places) :
    ∃ p, Store.plan (s.targets places) (Store.snapshots sources) = .ok p ∧ p.unknown = [] ∧
      p.matched.map (·.2) = Store.snapshots sources ∧
      ∀ m ∈ p.matched, Store.target? (s.targets places) m.2.changeId = some m.1 := by
  refine Store.plan_of_targets fun snapshot hsnapshot => ?_
  obtain ⟨source, hsource, hwritten⟩ := Store.mem_snapshots.1 hsnapshot
  obtain ⟨t, ht, hprofile⟩ := h.exists_target hsource
  obtain ⟨htarget, hfold⟩ := h.target_of_snapshot hsource hwritten ht hprofile
  exact ⟨t, htarget, by rw [Change.checkSnapshot, hfold]⟩

section Plan

variable {p : Store.Plan Nat} (hmatched : p.matched.map (·.2) = Store.snapshots sources)
  (htargets : ∀ m ∈ p.matched, Store.target? (s.targets places) m.2.changeId = some m.1)

include hmatched htargets

/-- **Each pair of the plan is a change and the snapshot of its source.** -/
theorem source_of_matched (h : Restart m filename sources s places) {t : Store.Target Nat}
    {snapshot : Snapshot} (hm : (t, snapshot) ∈ p.matched) :
    t ∈ s.targets places ∧ ∃ source ∈ sources, source.snapshot? = some snapshot ∧
      source.profile = t.change.profile := by
  have hsnapshot : snapshot ∈ Store.snapshots sources :=
    hmatched ▸ List.mem_map_of_mem (f := (·.2)) hm
  obtain ⟨source, hsource, hwritten⟩ := Store.mem_snapshots.1 hsnapshot
  obtain ⟨u, hu, hprofile⟩ := h.exists_target hsource
  have htarget := (h.target_of_snapshot hsource hwritten hu hprofile).1
  rw [htargets _ hm] at htarget
  cases htarget
  exact ⟨hu, source, hsource, hwritten, hprofile.symm⟩

/-- The plan has a pair for every source with a snapshot. -/
theorem matched_of_source (h : Restart m filename sources s places) {source : Change}
    (hsource : source ∈ sources) {snapshot : Snapshot}
    (hsnapshot : source.snapshot? = some snapshot)
    {t : Store.Target Nat} (ht : t ∈ s.targets places)
    (hprofile : t.change.profile = source.profile) : (t, snapshot) ∈ p.matched := by
  have hmem : snapshot ∈ p.matched.map (·.2) :=
    hmatched ▸ Store.mem_snapshots.2 ⟨source, hsource, hsnapshot⟩
  obtain ⟨⟨u, snapshot⟩, hu, rfl⟩ := List.mem_map.1 hmem
  have htarget := htargets _ hu
  rw [(h.target_of_snapshot hsource hsnapshot ht hprofile).1] at htarget
  cases htarget
  exact hu

/-- **Once cleared, the change takes the snapshot,** and has the maps of its source. -/
theorem take_of_matched (h : Restart m filename sources s places) {t : Store.Target Nat}
    {snapshot : Snapshot} (hm : (t, snapshot) ∈ p.matched) :
    t.key ∈ places ∧ s.change? t.key = some t.change ∧
      ∃ source ∈ sources, source.snapshot? = some snapshot ∧ source.profile = t.change.profile ∧
        t.change.clearOverrides.change.foldSnapshot snapshot = .ok source.maps := by
  obtain ⟨ht, source, hsource, hsnapshot, hprofile⟩ := h.source_of_matched hmatched htargets hm
  obtain ⟨hkey, hchange⟩ := mem_targets.1 ht
  have hreachable := h.reachable source hsource
  have hcleared : t.change.clearOverrides.change.profile = source.profile := hprofile.symm
  exact ⟨hkey, hchange, source, hsource, hsnapshot, hprofile,
    Change.foldSnapshot_snapshot? hreachable.consistent hreachable.named hsnapshot hcleared⟩

/-- A change whose source has nothing to save is left out. -/
theorem not_mem_of_silent (h : Restart m filename sources s places) {source : Change}
    (hsource : source ∈ sources) (hnone : source.snapshot? = none) {i : Nat} {c : Change}
    (hc : s.change? i = some c) (hprofile : source.profile = c.profile) :
    i ∉ p.matched.map (·.1.key) := by
  intro hmem
  obtain ⟨⟨t, snapshot⟩, hm, hkey⟩ := List.mem_map.1 hmem
  obtain ⟨-, hchange, source', hsource', hsnapshot, hprofile', -⟩ :=
    h.take_of_matched hmatched htargets hm
  rw [show t.key = i from hkey, hc] at hchange
  cases hchange
  have hsame : source = source' := h.source_unique hsource hsource' (by rw [hprofile, hprofile'])
  rw [hsame, hsnapshot] at hnone
  cases hnone

/-- No change is loaded twice. -/
theorem nodup_matched (h : Restart m filename sources s places) :
    (p.matched.map (·.1.key)).Nodup := by
  have hids := Store.ids_nodup h.distinct
  rw [← hmatched, List.map_map, List.Nodup, List.pairwise_map] at hids
  rw [List.Nodup, List.pairwise_map]
  refine hids.imp_of_mem fun {a b} ha hb hne hkey => hne ?_
  have hplaces : ((s.targets places).map (·.key)).Nodup := by
    rw [h.map_key_targets]
    exact h.nodup
  obtain ⟨ha', source, -, hsnapshot, hprofile⟩ := h.source_of_matched hmatched htargets ha
  obtain ⟨hb', source', -, hsnapshot', hprofile'⟩ := h.source_of_matched hmatched htargets hb
  have hsame : a.1 = b.1 := List.inj_on_of_nodup_map hplaces ha' hb' hkey
  rw [Function.comp_apply, Function.comp_apply, (OverrideMaps.snapshot?_some hsnapshot).2.1,
    (OverrideMaps.snapshot?_some hsnapshot').2.1, Change.idNumber, Change.idNumber, hprofile,
    hprofile', hsame]

end Plan

/-! ## The load -/

/-- A source that is not saved has no overrides at all. -/
theorem maps_of_snapshot?_eq_none (h : Restart m filename sources s places) {source : Change}
    (hsource : source ∈ sources) (hnone : source.snapshot? = none) : source.maps = .empty := by
  have hreachable := h.reachable source hsource
  have hempty := (Change.snapshot?_eq_none_iff_hasOverrides hreachable.consistent.covered
    hreachable.named).1 hnone
  rw [Change.hasOverrides, Bool.not_eq_false'] at hempty
  exact OverrideMaps.isEmpty_iff.1 hempty

theorem slot_of_change? (h : Restart m filename sources s places) {i : Nat} (hi : i ∈ places)
    {c : Change} (hc : s.change? i = some c) : s.slots[i]? = some ⟨c, false⟩ := by
  obtain ⟨d, hd⟩ := h.idle i hi
  rw [Session.change?, hd] at hc
  cases hc
  exact hd

section Load

variable (supply : Supply) {react : Reactor}

/-- A load, once its plan is made and goes through. -/
theorem load_of_plan {snapshots : List Snapshot} {ts : List (Store.Target Nat)}
    {p : Store.Plan Nat} (hread : Store.read s.storage filename = .ok snapshots)
    (hts : Store.targets (s.targets places) = ts) (hplan : Store.plan ts snapshots = .ok p)
    {cleared loaded : Done Unit} (hclear : s.clearAll supply react (ts.map (·.key)) = cleared)
    (hcleared : cleared.result = .ok ())
    (hload : cleared.session.loadAll supply react (p.matched.map fun m => (m.1.key, m.2)) = loaded)
    (hloaded : loaded.result = .ok ()) :
    (s.load supply react places filename).result = .ok p.loaded ∧
      (s.load supply react places filename).session = loaded.session := by
  unfold Session.load
  rw [hread]
  dsimp only
  rw [hts, hplan]
  dsimp only
  rw [hclear, Done.next, hcleared]
  dsimp only
  rw [hload, Done.map, hloaded]
  exact ⟨rfl, rfl⟩

/-- **The load succeeds,** and gives every change the maps of its source. -/
theorem load (hreact : react.Idle) (h : Restart m filename sources s places) :
    (s.load supply react places filename).result =
        .ok ⟨(Store.snapshots sources).map (·.changeId), []⟩ ∧
      ∀ i ∈ places, ∀ c, s.change? i = some c → ∃ source ∈ sources, source.profile = c.profile ∧
        (s.load supply react places filename).session.change? i =
          some { c with maps := source.maps } := by
  obtain ⟨p, hplan, hunknown, hmatched, htargets⟩ := h.exists_plan
  have hquiet : s.Quiet places := ⟨⟨_, h.storage⟩, h.quiet⟩
  -- every change is cleared
  obtain ⟨hcleared, hslots, hquiet'⟩ := hquiet.clearAll supply hreact
    fun i hi => ⟨hi, h.idle i hi⟩
  generalize hclear : s.clearAll supply react places = cleared at hcleared hslots hquiet'
  have hslot : ∀ i ∈ places, ∀ c, s.change? i = some c →
      cleared.session.slots[i]? = some ⟨c.clearOverrides.change, false⟩ := by
    intro i hi c hc
    rw [hslots, if_pos hi, h.slot_of_change? hi hc]
    rfl
  have hnodup : ((p.matched.map fun m => (m.1.key, m.2)).map (·.1)).Nodup := by
    rw [List.map_map]
    exact h.nodup_matched hmatched htargets
  -- every snapshot is taken by the cleared change of its source's profile
  obtain ⟨hloaded, hfull, hrest, -⟩ := hquiet'.loadAll supply hreact hnodup (by
    intro q hq
    obtain ⟨m, hm, rfl⟩ := List.mem_map.1 hq
    obtain ⟨hkey, hchange, source, -, -, -, hfold⟩ := h.take_of_matched hmatched htargets hm
    exact ⟨hkey, _, source.maps, hslot _ hkey _ hchange, rfl, hfold⟩)
  generalize hload : cleared.session.loadAll supply react (p.matched.map fun m => (m.1.key, m.2)) =
    loaded at hloaded hfull hrest
  obtain ⟨hresult, hsession⟩ := load_of_plan supply h.read h.targets hplan
    (by rw [h.map_key_targets]; exact hclear) hcleared hload hloaded
  refine ⟨?_, fun i hi c hc => ?_⟩
  · rw [hresult, Store.Plan.loaded, hunknown, ← hmatched, List.map_map]
    rfl
  · have ht : (⟨i, c⟩ : Store.Target Nat) ∈ s.targets places := mem_targets.2 ⟨hi, hc⟩
    obtain ⟨source, hsource, hprofile⟩ := h.exists_source ht
    refine ⟨source, hsource, hprofile, ?_⟩
    rw [hsession, Session.change?]
    cases hsnapshot : source.snapshot? with
    | some snapshot =>
      have hm := h.matched_of_source hmatched htargets hsource hsnapshot ht hprofile.symm
      obtain ⟨-, -, source', hsource', -, hprofile', hfold⟩ :=
        h.take_of_matched hmatched htargets hm
      have hsame : source = source' :=
        h.source_unique hsource hsource' (by rw [hprofile, hprofile'])
      rw [hfull (i, snapshot) (List.mem_map.2 ⟨_, hm, rfl⟩) _ _ (hslot i hi c hc) hfold, hsame]
      rfl
    | none =>
      have hout : i ∉ (p.matched.map fun m => (m.1.key, m.2)).map (·.1) := by
        rw [List.map_map]
        exact h.not_mem_of_silent hmatched htargets hsource hsnapshot hc hprofile
      rw [hrest i hout, hslot i hi c hc, h.maps_of_snapshot?_eq_none hsource hsnapshot]
      rfl

end Load

end Restart

/-- **Overrides survive a restart.** They are saved; a load of any changes of the same definitions
then succeeds, knows every id of the file, and loads those of the sources with a raw override in
ascending order; and every change has the raw and the evaluated overrides of its source, whatever
it had before. -/
theorem Session.perform_load_of_restart (supply : Supply) {m : MemoryStorage} {filename : String}
    {sources : List Change} {s : Session} {places : List Nat}
    (h : Restart m filename sources s places) :
    (Store.save (.memory m) filename sources).2 = .ok (Store.snapshots sources).length ∧
    ∃ ids, (s.perform supply (.load places filename)).result = .ok (.loaded ⟨ids, []⟩) ∧
      ids.Perm ((sources.filter fun c => !c.maps.raw.isEmpty).map (·.idNumber)) ∧
      ids.Pairwise (fun a b => a.lt b = true) ∧
      ∀ i ∈ places, ∀ c, s.change? i = some c → ∃ source ∈ sources, source.profile = c.profile ∧
        (s.perform supply (.load places filename)).session.change? i =
          some { c with maps := source.maps } := by
  obtain ⟨hresult, hmaps⟩ := h.load supply (react_idle supply s.reactionsLeft)
  refine ⟨rfl, (Store.snapshots sources).map (·.changeId), ?_, Store.ids_perm sources,
    Store.ids_pairwise h.distinct, hmaps⟩
  rw [perform, performWith, Done.map, hresult]
  rfl

/-- A change without overrides. -/
def unset (id : SafeInt) : Change where
  profile := ⟨id, none, none, false, false, none, true⟩

def seven : SafeInt := ⟨7, by decide, by decide⟩

/-- An override from version 1 to 7. -/
def oneToSeven : PackageOverride :=
  ⟨some .one, some seven, true, by simp [SafeInt.le_def, SafeInt.one, seven]⟩

/-- A change with an override that holds for the installed version of its package, one without
overrides, and one with an override for a package that is not installed. -/
def restartSources : List Change :=
  [(unset .one).after (.setRawOverride "app" oneToSeven .allowed (some (.ofSafeInt .one))),
    unset seven,
    (unset .minusOne).after (.setRawOverride "lib" (.unconditional false) .allowed none)]

theorem restartSources_maps : restartSources.map (fun c => (c.profile.id, c.maps)) =
    [(.one, ⟨NameMap.empty.insert "app" oneToSeven, NameMap.empty.insert "app" true⟩),
      (seven, .empty),
      (.minusOne, ⟨NameMap.empty.insert "lib" (.unconditional false), .empty⟩)] := by
  decide +kernel

/-- The session that they are loaded into. It has the changes in another order, each with an
override of its own, and logs to a file. -/
def restarted : Session where
  slots := [.minusOne, seven, .one].map fun id => { change := { unset id with
    maps := ⟨NameMap.empty.insert "old" (.unconditional true), .empty⟩ } }
  loggers := [{ sink := some (.file Logger.defaultFilename) }]
  storage := (Store.save (.memory {}) Store.defaultFilename restartSources).1

theorem unset_reachable (id : SafeInt) : (unset id).Reachable Mutation.Named :=
  .defined (d := { id := .ofSafeInt id, overridable := true })
    (by simp [Change.ofDefinition, Definition.profile?, Definition.gate, unset])

theorem restarted_restart :
    Restart {} Store.defaultFilename restartSources restarted [1, 2, 0] where
  reachable c hc := by
    simp only [restartSources, List.mem_cons, List.not_mem_nil, or_false] at hc
    obtain rfl | rfl | rfl := hc
    · exact .mutated (unset_reachable _) (by simp [Mutation.Named])
    · exact unset_reachable _
    · exact .mutated (unset_reachable _) (by simp [Mutation.Named])
  distinct := by decide +kernel
  storage := rfl
  nodup := by decide
  idle i hi := by
    simp only [List.mem_cons, List.not_mem_nil, or_false] at hi
    obtain rfl | rfl | rfl := hi <;> exact ⟨_, rfl⟩
  same := by decide +kernel
  quiet i hi logger hlogger := by
    simp only [List.mem_cons, List.not_mem_nil, or_false] at hi
    obtain rfl | rfl | rfl := hi
    · cases hlogger
    · cases hlogger
    · cases hlogger
      trivial

theorem restarted_load :
    Restart {} Store.defaultFilename restartSources restarted [1, 2, 0] ∧
    ∃ d, restarted.perform default (.load [1, 2, 0] Store.defaultFilename) = d ∧
      d.result = .ok (.loaded ⟨[.ofSafeInt .minusOne, .ofSafeInt .one], []⟩) ∧
      (d.session.change? 0).map (·.maps) =
        some ⟨NameMap.empty.insert "lib" (.unconditional false), .empty⟩ ∧
      (d.session.change? 1).map (·.maps) = some .empty ∧
      (d.session.change? 2).map (·.maps) =
        some ⟨NameMap.empty.insert "app" oneToSeven, NameMap.empty.insert "app" true⟩ := by
  obtain ⟨-, ids, hresult, hperm, hpairwise, hmaps⟩ :=
    Session.perform_load_of_restart default restarted_restart
  have hkept : ((restartSources.filter fun c => !c.maps.raw.isEmpty).map (·.idNumber)) =
      [.ofSafeInt .one, .ofSafeInt .minusOne] := by decide +kernel
  have hids : ids = [.ofSafeInt .minusOne, .ofSafeInt .one] := by
    rw [hkept] at hperm
    rcases List.perm_pair.1 hperm with rfl | rfl
    · exact absurd hpairwise (by decide +kernel)
    · rfl
  -- ids tell apart which source a change has its maps from
  have hloaded : ∀ i ∈ [1, 2, 0], ∀ c, restarted.change? i = some c → ∃ maps,
      (c.profile.id, maps) ∈ restartSources.map (fun c => (c.profile.id, c.maps)) ∧
      ((restarted.perform default (.load [1, 2, 0] Store.defaultFilename)).session.change? i).map
        (·.maps) = some maps := by
    intro i hi c hc
    obtain ⟨source, hsource, hprofile, hchange⟩ := hmaps i hi c hc
    refine ⟨source.maps, ?_, by rw [hchange]; rfl⟩
    rw [← hprofile]
    exact List.mem_map_of_mem hsource
  rw [restartSources_maps] at hloaded
  refine ⟨restarted_restart, _, rfl, by rw [hresult, hids], ?_, ?_, ?_⟩
  · obtain ⟨maps, hmem, hchange⟩ := hloaded 0 (by decide) _ rfl
    rw [hchange]
    simpa [unset, SafeInt.one, SafeInt.minusOne, seven] using hmem
  · obtain ⟨maps, hmem, hchange⟩ := hloaded 1 (by decide) _ rfl
    rw [hchange]
    simpa [unset, SafeInt.one, SafeInt.minusOne, seven] using hmem
  · obtain ⟨maps, hmem, hchange⟩ := hloaded 2 (by decide) _ rfl
    rw [hchange]
    simpa [unset, SafeInt.one, SafeInt.minusOne, seven] using hmem

end ChangeGate
