import ChangeGate.Proofs.Session.Accept
import ChangeGate.Proofs.Store.Canonical
/-!
# Migration

A state file may be of an older form: it may have the deferred category, repeat ids and packages
and know changes that there are no more. Once such a file has been loaded and the changes are saved
again it is in normal form, and that is reached in one step (`load_migrates`): the new file brings
every change the very maps that the old one brought, and is written again letter by letter.

What makes this true is that the maps that come of a file are such as a change may have: every
validated value brought an override with it, and none is for the empty name (`Settled`). Of these a
snapshot keeps everything (`Settled.mergeAll`), though of maps in general it does not.
-/

namespace ChangeGate

/-- **A change of which a snapshot keeps everything.** -/
structure Change.Settled (c : Change) : Prop where
  consistent : c.Consistent
  named : c.maps.Named

namespace Change

variable {c d : Change}

/-- **After a clear,** snapshots of packages leave a change settled. -/
theorem settled_of_loads {snapshots : List Snapshot} (hnamed : ∀ s ∈ snapshots, s.Named) :
    (c.run (.clearOverrides :: snapshots.map .loadOverrides)).Settled := by
  have hempty : (c.after .clearOverrides).maps = .empty := rfl
  have hnamed' : (c.after .clearOverrides).maps.Named := OverrideMaps.named_empty
  rw [run_cons]
  refine ⟨(consistent_of_empty hempty).run _, named_run (fun m hm => ?_) hnamed'⟩
  obtain ⟨s, hs, rfl⟩ := List.mem_map.1 hm
  exact hnamed s hs

/-- **What is saved of a settled change brings its maps back,** and if nothing is saved then it has
none. -/
theorem Settled.mergeAll (hc : c.Settled) :
    OverrideMaps.empty.mergeAll c.snapshot?.toList = .ok c.maps := by
  cases hsnapshot : c.snapshot? with
  | none =>
    have hnone := (snapshot?_eq_none_iff_hasOverrides hc.consistent.covered hc.named).1 hsnapshot
    rw [hasOverrides, Bool.not_eq_false', OverrideMaps.isEmpty_iff] at hnone
    rw [hnone]
    rfl
  | some s =>
    have hfold := OverrideMaps.fold_snapshot?_of_covered hc.consistent.covered hc.named hsnapshot
    rw [Option.toList_some, OverrideMaps.mergeAll, hfold]
    dsimp only
    rw [OverrideMaps.mergeAll, OverrideMaps.merge, OverrideMaps.empty, NameMap.empty_merge,
      NameMap.empty_merge]

end Change

namespace Store

variable {changes : List Change} {storage : Storage} {filename : String}
  {found : List Snapshot}

/-- **What is read names packages only,** wherever it is kept. -/
theorem named_of_read (h : read storage filename = .ok found) : ∀ s ∈ found, s.Named := by
  unfold read Storage.readJson at h
  split at h
  · rename_i file hfile
    cases h
    split at hfile
    · cases hfile
    · cases hfile
      exact fun s hs => absurd hs List.not_mem_nil
    · unfold Storage.interpret at hfile
      split at hfile
      · cases hfile
        exact fun s hs => absurd hs List.not_mem_nil
      · split at hfile
        · rename_i hresult
          cases hfile
          exact StateFile.named_of_accepted hresult
        · cases hfile
  · cases h

/-- The text of what is saved. -/
def textOf (changes : List Change) : String :=
  (StateFile.toJson ⟨snapshots changes⟩).indented

theorem readable_snapshots (changes : List Change) :
    (StateFile.toJson ⟨snapshots changes⟩).Readable :=
  StateFile.readable fun _ hs => written_of_mem_snapshots hs

/-- **A saved text is read wherever it is found,** if nothing in it is for the empty name. -/
theorem read_textOf (hnamed : ∀ c ∈ changes, c.maps.raw.isEmpty = false → c.maps.Named)
    (h : storage.readText filename = .ok (some (textOf changes))) :
    read storage filename = .ok (snapshots changes) := by
  rw [read, Storage.readJson, h]
  dsimp only
  rw [textOf, Storage.interpret, Json.parse?_indented (readable_snapshots changes)]
  dsimp only
  rw [(reads_snapshots changes []).result_ok hnamed]

/-- **Of what is saved, a change's own snapshot has its id.** -/
theorem filter_snapshots (hids : (changes.map (·.profile.id)).Nodup) {c : Change}
    (hc : c ∈ changes) :
    (snapshots changes).filter (fun s => s.changeId = c.idNumber) = c.snapshot?.toList := by
  have hother : ∀ d : Change, d.profile.id ≠ c.profile.id →
      d.snapshot?.filter (fun s => s.changeId = c.idNumber) = none := by
    intro d hne
    refine Option.filter_eq_none_iff.2 fun s hs => ?_
    rw [decide_eq_true_eq, (OverrideMaps.snapshot?_some hs).2.1]
    exact fun heq => hne (Number.ofSafeInt_injective heq)
  have hself : c.snapshot?.filter (fun s => s.changeId = c.idNumber) = c.snapshot? := by
    cases hs : c.snapshot? with
    | none => rfl
    | some s => simp [Option.filter, (OverrideMaps.snapshot?_some hs).2.1, Change.idNumber]
  rw [snapshots, Change.idNumber, filter_sortById, ← Change.idNumber, List.filter_filterMap]
  induction changes with
  | nil => cases hc
  | cons d changes ih =>
    rw [List.map_cons, List.nodup_cons] at hids
    rcases List.mem_cons.1 hc with rfl | hc
    · have hrest : changes.filterMap
          (fun d => d.snapshot?.filter fun s => s.changeId = c.idNumber) = [] := by
        refine List.filterMap_eq_nil_iff.2 fun d hd => hother d fun hid => ?_
        exact hids.1 (hid ▸ List.mem_map_of_mem (f := (·.profile.id)) hd)
      rw [List.filterMap_cons, hself, hrest]
      cases c.snapshot? <;> rfl
    · have hne : d.profile.id ≠ c.profile.id := fun hid =>
        hids.1 (hid ▸ List.mem_map_of_mem (f := (·.profile.id)) hc)
      rw [List.filterMap_cons, hother d hne]
      exact ih hids.2 hc

/-- **A state file in normal form:** no category is deferred, no id comes twice, and no package comes
twice in a category. -/
structure NormalForm (kept : List Snapshot) : Prop where
  undeferred : ∀ s ∈ kept, s.deferred = none
  ids : (kept.map (·.changeId)).Nodup
  raw : ∀ s ∈ kept, (s.rawEntries.map (·.packageName)).Nodup
  validated : ∀ s ∈ kept, (s.validatedEntries.map (·.packageName)).Nodup

/-- **What is saved of changes of distinct ids is in normal form.** -/
theorem normalForm_snapshots (hids : (changes.map (·.profile.id)).Nodup) :
    NormalForm (snapshots changes) := by
  have hwrites := (canonical_snapshots hids).writes
  refine ⟨fun s hs => ?_, ids_nodup hids, fun s hs => ?_, fun s hs => ?_⟩
  · obtain ⟨c, -, hc⟩ := hwrites s hs
    exact hc.deferred
  · obtain ⟨c, -, hc⟩ := hwrites s hs
    obtain ⟨entries, hentries, hwritten⟩ := hc.raw
    rw [Snapshot.rawEntries, hentries]
    exact hwritten.ascending.imp Text.ne_of_precedes
  · obtain ⟨c, -, hc⟩ := hwrites s hs
    obtain ⟨entries, hentries, hwritten⟩ := hc.validated
    rw [Snapshot.validatedEntries, hentries]
    exact hwritten.ascending.imp Text.ne_of_precedes

/-- The maps that go with a profile. -/
def mapsOf (changes : List Change) (p : Profile) : OverrideMaps :=
  ((changes.find? fun c => c.profile = p).map (·.maps)).getD .empty

theorem mapsOf_profile (hids : (changes.map (·.profile.id)).Nodup) {c : Change}
    (hc : c ∈ changes) : mapsOf changes c.profile = c.maps := by
  obtain ⟨d, hd⟩ : ∃ d, changes.find? (fun d => d.profile = c.profile) = some d :=
    Option.isSome_iff_exists.1 (List.find?_isSome.2 ⟨c, hc, decide_eq_true rfl⟩)
  have hprofile : d.profile = c.profile := by simpa using List.find?_some hd
  have hsame : d = c :=
    List.inj_on_of_nodup_map hids (List.mem_of_find?_eq_some hd) hc (congrArg (·.id) hprofile)
  rw [mapsOf, hd, hsame]
  rfl

/-- **Changes of the same profiles with the same maps are saved alike,** in whatever order. -/
theorem snapshots_perm_of_profiles {others : List Change}
    (hids : (changes.map (·.profile.id)).Nodup)
    (hprofiles : (others.map (·.profile)).Perm (changes.map (·.profile)))
    (hmaps : ∀ d ∈ others, ∃ c ∈ changes, c.profile = d.profile ∧ d.maps = c.maps) :
    (changes.filterMap Change.snapshot?).Perm (others.filterMap Change.snapshot?) := by
  have hwrite : ∀ ds : List Change, (∀ d ∈ ds, d.maps = mapsOf changes d.profile) →
      ds.filterMap Change.snapshot? =
        (ds.map (·.profile)).filterMap fun p => (mapsOf changes p).snapshot? (.ofSafeInt p.id) := by
    intro ds hds
    rw [List.filterMap_map]
    refine List.filterMap_congr fun d hd => ?_
    rw [Change.snapshot?, hds d hd]
    rfl
  have hothers : ∀ d ∈ others, d.maps = mapsOf changes d.profile := by
    intro d hd
    obtain ⟨c, hc, hprofile, heq⟩ := hmaps d hd
    rw [heq, ← hprofile, mapsOf_profile hids hc]
  rw [hwrite changes fun c hc => (mapsOf_profile hids hc).symm, hwrite others hothers]
  exact (hprofiles.filterMap _).symm

end Store

namespace Session

variable {supply : Supply} {depth : Nat} {s t : Session} {places others : List Nat}
  {filename : String} {changes : List Change}

/-! ## What a load leaves -/

theorem load_replays (supply : Supply) (depth : Nat) (places : List Nat) (filename : String)
    (s : Session) : Replays s (s.load supply (react supply depth) places filename).journal
      (s.load supply (react supply depth) places filename).session :=
  (composes_replays supply).load (fun notified? reaction t =>
    (react_sound supply depth notified? reaction t).1) places filename s

/-- A load leaves the profiles as they are. -/
theorem load_profiles (supply : Supply) (depth : Nat) (places : List Nat) (filename : String)
    (s : Session) :
    (places.filterMap (s.load supply (react supply depth) places filename).session.change?).map
      (·.profile) = (places.filterMap s.change?).map (·.profile) := by
  have hreplays := load_replays supply depth places filename s
  rw [List.map_filterMap, List.map_filterMap]
  refine List.filterMap_congr fun i _ => ?_
  rw [hreplays.change? i, Option.map_map]
  congr 1
  funext c
  exact Change.run_profile c _

/-- **A load that succeeds leaves changes of which a snapshot keeps everything.** -/
theorem settled_of_load {loaded : Store.Loaded} (hdistinct : s.Distinct places)
    (hsilent : s.Silent places)
    (hok : (s.load supply (react supply depth) places filename).result = .ok loaded) :
    ∀ c ∈ places.filterMap (s.load supply (react supply depth) places filename).session.change?,
      c.Settled := by
  intro d hd
  obtain ⟨i, hi, hd⟩ := List.mem_filterMap.1 hd
  have hreplays := (load_replays supply depth places filename s).change? i
  rw [hd] at hreplays
  obtain ⟨c, hc, -⟩ := Option.map_eq_some_iff.1 hreplays.symm
  obtain ⟨found, hfound, hmaps, -⟩ := load_replaces supply depth places filename s hdistinct hsilent
    hok
  obtain ⟨maps, hmerged, hchange⟩ := hmaps i hi c hc
  obtain ⟨found', hfound', htakes⟩ := takes_of_load hdistinct hok
  rw [hfound] at hfound'
  cases hfound'
  obtain ⟨maps', hmerged', hrun⟩ := run_calls htakes hi hc fun _ ht => ht
  rw [hmerged] at hmerged'
  cases hmerged'
  rw [hd] at hchange
  cases hchange
  rw [← hrun]
  exact Change.settled_of_loads fun u hu =>
    Store.named_of_read hfound u (List.mem_of_mem_filter hu)

/-! ## What is saved then, and loaded again -/

/-- **What a save of the changes at some places writes:** this text, of so many snapshots, whatever
storage it goes to; and in memory it does go there. -/
structure SavesAs (s : Session) (places : List Nat) (text : String) (count : Nat) : Prop where
  written : ∀ storage filename n,
    (Session.save places filename { s with storage }).result = .ok n →
      n = count ∧ (Session.save places filename { s with storage }).session.storage.readText
        filename = .ok (some text)
  memory : ∀ m filename,
    (Session.save places filename { s with storage := .memory m }).result = .ok count

theorem savesAs (s : Session) (places : List Nat) :
    s.SavesAs places (Store.textOf (places.filterMap s.change?))
      (Store.snapshots (places.filterMap s.change?)).length where
  written _ _ _ hsaved := text_of_save hsaved
  memory _ _ := rfl

/-- **A session that can load what was saved of changes of these profiles.** It has changes of the
same profiles at some places, in whatever order; none of them is being mutated, and their sinks
neither fail nor call back. -/
structure Receives (supply : Supply) (depth : Nat) (profiles : List Profile) (t : Session)
    (places : List Nat) : Prop where
  same : ((places.filterMap t.change?).map (·.profile)).Perm profiles
  idle : ∀ i ∈ places, ∀ slot, t.slots[i]? = some slot → slot.mutating = false
  silent : t.Silent places
  sinks : SinksHold supply (react supply depth) places t

namespace Receives

theorem distinct (h : Receives supply depth (changes.map (·.profile)) t others)
    (hids : (changes.map (·.profile.id)).Nodup) : t.Distinct others := by
  have hperm := (h.same.map (·.id)).nodup_iff
  rw [List.map_map, List.map_map] at hperm
  exact hperm.2 hids

/-- The change that was saved under a profile. -/
theorem exists_source (h : Receives supply depth (changes.map (·.profile)) t others) {j : Nat}
    {d : Change} (hj : j ∈ others) (hd : t.change? j = some d) :
    ∃ c ∈ changes, c.profile = d.profile := by
  have hmem : d ∈ others.filterMap t.change? := List.mem_filterMap.2 ⟨j, hj, hd⟩
  exact List.mem_map.1 (h.same.mem_iff.1 (List.mem_map_of_mem hmem))

/-- **Every change takes what was saved under its id.** -/
theorem takes (h : Receives supply depth (changes.map (·.profile)) t others)
    (hids : (changes.map (·.profile.id)).Nodup) (hsettled : ∀ c ∈ changes, c.Settled) :
    t.Takes others (Store.snapshots changes) := by
  intro snapshot hsnapshot j hj d hd hid
  obtain ⟨c, hc, hs⟩ := Store.mem_snapshots.1 hsnapshot
  obtain ⟨source, hsource, hprofile⟩ := h.exists_source hj hd
  have heq : source = c := by
    refine List.inj_on_of_nodup_map hids hsource hc ?_
    rw [(OverrideMaps.snapshot?_some hs).2.1] at hid
    rw [hprofile]
    exact (Number.ofSafeInt_injective hid).symm
  subst heq
  exact Change.checkSnapshot_eq_ok_iff.2 ⟨_, Change.foldSnapshot_snapshot?
    (hsettled source hsource).consistent (hsettled source hsource).named hs hprofile.symm⟩

/-- **The load succeeds, and every change has the maps that were saved under its profile.** -/
theorem load (h : Receives supply depth (changes.map (·.profile)) t others)
    (hids : (changes.map (·.profile.id)).Nodup) (hsettled : ∀ c ∈ changes, c.Settled)
    (htext : t.storage.readText filename = .ok (some (Store.textOf changes))) :
    (∃ loaded, (t.load supply (react supply depth) others filename).result = .ok loaded) ∧
    ∀ j ∈ others, ∀ d, t.change? j = some d → ∃ c ∈ changes, c.profile = d.profile ∧
      (t.load supply (react supply depth) others filename).session.change? j =
        some { d with maps := c.maps } := by
  have hdistinct := h.distinct hids
  have htakes := h.takes hids hsettled
  have hread := Store.read_textOf (fun c hc _ => (hsettled c hc).named) htext
  have hok : (t.load supply (react supply depth) others filename).result =
      .ok (t.loadedAt others (Store.snapshots changes)) := by
    rw [load_eq_callAll supply _ hdistinct hread htakes, Done.map, h.sinks.callAll
      (react_sound supply depth) (callable_of_mem_loadCalls hdistinct htakes h.idle)]
    rfl
  refine ⟨⟨_, hok⟩, fun j hj d hd => ?_⟩
  obtain ⟨c, hc, hprofile⟩ := h.exists_source hj hd
  obtain ⟨found, hfound, hmaps, -⟩ := load_replaces supply depth others filename t hdistinct h.silent
    hok
  rw [hread] at hfound
  cases hfound
  obtain ⟨maps, hmerged, hchange⟩ := hmaps j hj d hd
  have hid : d.idNumber = c.idNumber := by rw [Change.idNumber, Change.idNumber, hprofile]
  rw [hid, Store.filter_snapshots hids hc, (hsettled c hc).mergeAll] at hmerged
  cases hmerged
  exact ⟨c, hc, hprofile, hchange⟩

/-- **And a save then writes the same text.** -/
theorem savesAs (h : Receives supply depth (changes.map (·.profile)) t others)
    (hids : (changes.map (·.profile.id)).Nodup) (hsettled : ∀ c ∈ changes, c.Settled)
    (htext : t.storage.readText filename = .ok (some (Store.textOf changes))) :
    (t.load supply (react supply depth) others filename).session.SavesAs others
      (Store.textOf changes) (Store.snapshots changes).length := by
  obtain ⟨-, hmaps⟩ := h.load hids hsettled htext
  have hreplays := load_replays supply depth others filename t
  have hprofiles := load_profiles supply depth others filename t
  generalize (t.load supply (react supply depth) others filename).session = now
    at hmaps hreplays hprofiles
  have hsame : Store.snapshots changes = Store.snapshots (others.filterMap now.change?) := by
    refine Store.snapshots_eq_of_perm hids
      (Store.snapshots_perm_of_profiles hids (hprofiles ▸ h.same) fun e he => ?_)
    obtain ⟨j, hj, he⟩ := List.mem_filterMap.1 he
    have hbefore := hreplays.change? j
    rw [he] at hbefore
    obtain ⟨d, hd, -⟩ := Option.map_eq_some_iff.1 hbefore.symm
    obtain ⟨c, hc, hprofile, hchange⟩ := hmaps j hj d hd
    rw [he] at hchange
    cases hchange
    exact ⟨c, hc, hprofile, rfl⟩
  rw [Store.textOf, hsame]
  exact Session.savesAs now others

end Receives

/-- **A load of a migrated file.** It succeeds, every change has the maps that the one of its profile
had when the file was written, and what is saved then is that text again. -/
structure Migrated (source : Session) (places : List Nat) (text : String) (count : Nat)
    (t : Session) (others : List Nat) (d : Done Store.Loaded) : Prop where
  succeeds : ∃ loaded, d.result = .ok loaded
  maps : ∀ j ∈ others, ∀ c, t.change? j = some c → ∃ i ∈ places, ∃ saved,
    source.change? i = some saved ∧ saved.profile = c.profile ∧
      d.session.change? j = some { c with maps := saved.maps }
  again : d.session.SavesAs others text count

/-- **Migration preserves meaning and normalises in one pass.** Whatever file has been loaded, a
save of the changes writes a file in normal form; loaded into any changes of the same definitions,
these or new ones, in whatever order, it brings each the maps that the first file brought, and is
saved as it is. -/
theorem load_migrates (supply : Supply) (depth : Nat) (places : List Nat) (filename : String)
    (s : Session) {loaded : Store.Loaded} (hdistinct : s.Distinct places)
    (hsilent : s.Silent places)
    (hok : (s.load supply (react supply depth) places filename).result = .ok loaded) :
    ∃ kept text, Store.NormalForm kept ∧ Json.parse? text = some (StateFile.toJson ⟨kept⟩) ∧
      (s.load supply (react supply depth) places filename).session.SavesAs places text
        kept.length ∧
      ∀ supply' depth' t others filename',
        Receives supply' depth' ((places.filterMap s.change?).map (·.profile)) t others →
        t.storage.readText filename' = .ok (some text) →
        Migrated (s.load supply (react supply depth) places filename).session places text
          kept.length t others (t.load supply' (react supply' depth') others filename') := by
  have hsettled := settled_of_load hdistinct hsilent hok
  have hprofiles := load_profiles supply depth places filename s
  generalize (s.load supply (react supply depth) places filename).session = now
    at hsettled hprofiles
  have hids : ((places.filterMap now.change?).map (·.profile.id)).Nodup := by
    have heq := congrArg (List.map (·.id)) hprofiles
    rw [List.map_map, List.map_map] at heq
    exact heq ▸ hdistinct
  refine ⟨_, Store.textOf (places.filterMap now.change?), Store.normalForm_snapshots hids,
    Json.parse?_indented (Store.readable_snapshots _), savesAs now places, ?_⟩
  intro supply' depth' t others filename' hreceives htext
  rw [← hprofiles] at hreceives
  obtain ⟨hsucceeds, hmaps⟩ := hreceives.load hids hsettled htext
  refine ⟨hsucceeds, fun j hj d hd => ?_, hreceives.savesAs hids hsettled htext⟩
  obtain ⟨c, hc, hprofile, hchange⟩ := hmaps j hj d hd
  obtain ⟨i, hi, hsource⟩ := List.mem_filterMap.1 hc
  exact ⟨i, hi, c, hsource, hprofile, hchange⟩

/-- New changes of the definitions in `quietCrowd`, the other way round, and a storage with this
text. -/
def freshCrowd (text : String) : Session where
  slots := [{ change := { profile := (aged two).profile } },
    { change := { profile := (aged .one).profile } }]
  storage := .memory (MemoryStorage.writeText {} Store.defaultFilename text)

theorem receives_freshCrowd (text : String) :
    Receives default 0 (([0, 1].filterMap quietCrowd.change?).map (·.profile)) (freshCrowd text)
      [0, 1] := by
  have hcautious : (freshCrowd text).Cautious [0, 1] := ⟨⟨_, rfl⟩, fun i _ logger hlogger => by
    cases hlogger⟩
  exact {
    same := .swap _ _ _
    idle := by
      intro i _ slot hslot
      obtain rfl | rfl := List.mem_pair.1 (List.mem_of_getElem? hslot)
      · rfl
      · rfl
    silent := fun i _ logger hlogger => by cases hlogger
    sinks := hcautious.sinksHold default 0 }

theorem quietCrowd_migrates :
    quietCrowd.Distinct [0, 1] ∧ quietCrowd.Silent [0, 1] ∧
    (quietCrowd.load default (react default 0) [0, 1] Store.defaultFilename).result =
      .ok ⟨[.ofSafeInt .one, .ofSafeInt .one], [.ofSafeInt three]⟩ ∧
    ∃ kept text, Store.NormalForm kept ∧ Json.parse? text = some (StateFile.toJson ⟨kept⟩) ∧
      (quietCrowd.load default (react default 0) [0, 1] Store.defaultFilename).session.SavesAs [0, 1]
        text kept.length ∧
      Migrated (quietCrowd.load default (react default 0) [0, 1] Store.defaultFilename).session
        [0, 1] text kept.length (freshCrowd text) [0, 1]
        ((freshCrowd text).load default (react default 0) [0, 1] Store.defaultFilename) := by
  have hdistinct : quietCrowd.Distinct [0, 1] := distinct_crowd _ _ rfl
  obtain ⟨kept, text, hnormal, hparse, hsaves, hmigrated⟩ := load_migrates default 0 [0, 1]
    Store.defaultFilename quietCrowd hdistinct silent_quietCrowd quietCrowd_load
  refine ⟨hdistinct, silent_quietCrowd, quietCrowd_load, kept, text, hnormal, hparse, hsaves, ?_⟩
  refine hmigrated default 0 (freshCrowd text) [0, 1] Store.defaultFilename
    (receives_freshCrowd text) ?_
  change Except.ok ((NameMap.empty.insert Store.defaultFilename text).get? _) = _
  rw [NameMap.get?_insert_self]

end Session

end ChangeGate
