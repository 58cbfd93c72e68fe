import Mathlib.Data.List.Nodup
import ChangeGate.Proofs.Number
import ChangeGate.Proofs.Store.Save
/-!
# One text for what is kept

What a save writes depends on what is kept and on nothing else: neither the order in which the
changes are given nor what else is true of them has a say, nor does it matter how their maps came
to be filled (`save_canonical`). There are two orders behind this, that of ids, which are compared
by their difference, and that of names, by code units. In either of them there is one way only to
put in order what is different (`eq_of_sorted`).
-/

namespace ChangeGate

open Text

/-! ## Maps -/

namespace NameMap

variable {α : Type}

/-- **A map can be listed in one way only** so that no name comes behind one that it precedes. -/
theorem eq_entries_of_sorted {m : NameMap α} {listing : List (String × α)}
    (hperm : listing.Perm m.entries) (hsorted : listing.Pairwise fun a b => ¬ Precedes b.1 a.1) :
    listing = m.entries := by
  refine hperm.eq_of_pairwise ?_ hsorted (m.sorted.imp fun h => precedes_asymm h)
  intro a b ha hb hba hab
  -- neither name precedes the other, and a map has one entry for a name
  have hname : a.1 = b.1 := eq_of_not_precedes hab hba
  have ha' : m.get? b.1 = some a.2 := get?_eq_some_iff.2 (hname ▸ hperm.mem_iff.1 ha)
  rw [get?_eq_some_iff.2 hb] at ha'
  exact Prod.ext hname (Option.some.inj ha').symm

theorem mem_keys {m : NameMap α} {name : String} :
    name ∈ m.keys ↔ m.contains name = true := by
  rw [contains_iff, keys, List.mem_map]
  constructor
  · rintro ⟨e, he, rfl⟩
    exact ⟨e.2, get?_eq_some_iff.2 he⟩
  · rintro ⟨value, hvalue⟩
    exact ⟨(name, value), get?_eq_some_iff.1 hvalue, rfl⟩

theorem keys_pairwise (m : NameMap α) : m.keys.Pairwise Precedes :=
  List.pairwise_map.2 m.sorted

/-- **A list of entries that writes a map.** The names ascend and are those of the map, and the
list is what comes of any arrangement of the map in which no name comes behind one that it
precedes. -/
structure WrittenAs {β : Type} (m : NameMap α) (name : β → String) (write : String × α → β)
    (entries : List β) : Prop where
  ascending : (entries.map name).Pairwise Precedes
  names : ∀ n, n ∈ entries.map name ↔ m.contains n = true
  arranged : ∀ listing : List (String × α), listing.Perm m.entries →
    (listing.Pairwise fun a b => ¬ Precedes b.1 a.1) → entries = listing.map write

theorem writtenAs_map {β : Type} (m : NameMap α) {name : β → String} {write : String × α → β}
    (hname : ∀ e, name (write e) = e.1) : m.WrittenAs name write (m.entries.map write) := by
  have hkeys : (m.entries.map write).map name = m.keys := by
    rw [List.map_map]
    exact List.map_congr_left fun e _ => hname e
  exact {
    ascending := hkeys ▸ m.keys_pairwise
    names := fun n => by rw [hkeys, mem_keys]
    arranged := fun listing hperm hsorted => by rw [eq_entries_of_sorted hperm hsorted] }

end NameMap

/-- **A snapshot that writes a change:** all its overrides of both kinds, and nothing deferred. -/
structure Snapshot.Writes (s : Snapshot) (c : Change) : Prop where
  changeId : s.changeId = c.idNumber
  raw : ∃ entries, s.raw = some entries ∧
    c.maps.raw.WrittenAs (·.packageName) (fun e => .ofOverride e.1 e.2) entries
  validated : ∃ entries, s.validated = some entries ∧
    c.maps.evaluated.WrittenAs (·.packageName) (fun e => ⟨e.1, e.2⟩) entries
  deferred : s.deferred = none

theorem Change.writes_of_snapshot? {c : Change} {s : Snapshot} (h : c.snapshot? = some s) :
    s.Writes c := by
  unfold snapshot? OverrideMaps.snapshot? at h
  split at h
  · cases h
  · cases h
    exact ⟨rfl, ⟨_, rfl, c.maps.raw.writtenAs_map fun _ => rfl⟩,
      ⟨_, rfl, c.maps.evaluated.writtenAs_map fun _ => rfl⟩, rfl⟩

/-! ## Changes of which the same is kept -/

/-- **Two changes of which the same is kept:** they have one id and the same overrides, whatever
else is different. -/
structure Change.KeptAlike (c d : Change) : Prop where
  id : c.profile.id = d.profile.id
  raw : ∀ name, c.maps.raw.get? name = d.maps.raw.get? name
  evaluated : ∀ name, c.maps.evaluated.get? name = d.maps.evaluated.get? name

/-- **Two lists of changes of which the same is kept,** in whatever order. -/
def SameKept (changes others : List Change) : Prop :=
  ∃ arranged, changes.Perm arranged ∧ List.Forall₂ Change.KeptAlike arranged others

theorem Change.keptAlike_of_maps {c d : Change} (hid : c.profile.id = d.profile.id)
    (hmaps : c.maps = d.maps) : c.KeptAlike d :=
  ⟨hid, fun _ => by rw [hmaps], fun _ => by rw [hmaps]⟩

theorem Change.KeptAlike.snapshot? {c d : Change} (h : c.KeptAlike d) :
    c.snapshot? = d.snapshot? := by
  have hraw : c.maps.raw = d.maps.raw := NameMap.ext_get? h.raw
  have hevaluated : c.maps.evaluated = d.maps.evaluated := NameMap.ext_get? h.evaluated
  rw [Change.snapshot?, Change.snapshot?, idNumber, idNumber, h.id, OverrideMaps.snapshot?,
    OverrideMaps.snapshot?, hraw, hevaluated]

theorem SameKept.snapshots_perm {changes others : List Change} (h : SameKept changes others) :
    (changes.filterMap Change.snapshot?).Perm (others.filterMap Change.snapshot?) := by
  obtain ⟨arranged, hperm, halike⟩ := h
  refine (hperm.filterMap _).trans (.of_eq ?_)
  clear hperm
  induction halike with
  | nil => rfl
  | cons hfirst _ ih => rw [List.filterMap_cons, List.filterMap_cons, hfirst.snapshot?, ih]

namespace Store

variable {changes others : List Change}

/-- **Snapshots of distinct ids are put in order in one way only.** -/
theorem eq_of_sorted {xs ys : List Snapshot} (hsafe : SafeIds xs)
    (hnodup : (xs.map (·.changeId)).Nodup) (hperm : xs.Perm ys) (hxs : xs.Pairwise InOrder)
    (hys : ys.Pairwise InOrder) : xs = ys := by
  refine hperm.eq_of_pairwise ?_ hxs hys
  intro s t hs ht hst hts
  obtain ⟨a, ha⟩ := hsafe s hs
  obtain ⟨b, hb⟩ := hsafe t (hperm.mem_iff.2 ht)
  rw [InOrder, ha, hb, Number.le_ofSafeInt, decide_eq_true_eq, SafeInt.le_def] at hst hts
  have hid : s.changeId = t.changeId := by rw [ha, hb, SafeInt.ext (Int.le_antisymm hst hts)]
  exact List.inj_on_of_nodup_map hnodup hs (hperm.mem_iff.2 ht) hid

theorem ids_nodup_filterMap (h : (changes.map (·.profile.id)).Nodup) :
    ((changes.filterMap Change.snapshot?).map (·.changeId)).Nodup :=
  ((sortById_perm _).map _).nodup_iff.1 (ids_nodup h)

/-- **What is saved is the same** for changes with the same snapshots. -/
theorem snapshots_eq_of_perm (hids : (changes.map (·.profile.id)).Nodup)
    (hperm : (changes.filterMap Change.snapshot?).Perm (others.filterMap Change.snapshot?)) :
    snapshots changes = snapshots others := by
  have hsorted : (snapshots changes).Perm (snapshots others) :=
    (sortById_perm _).trans (hperm.trans (sortById_perm _).symm)
  exact eq_of_sorted (fun s hs => (written_of_mem_snapshots hs).changeId) (ids_nodup hids) hsorted
    (sortById_pairwise (safeIds_snapshots changes)) (sortById_pairwise (safeIds_snapshots others))

/-- A save looks at nothing but what is saved. -/
theorem save_eq (hids : (changes.map (·.profile.id)).Nodup) (hsame : SameKept changes others)
    (storage : Storage) (filename : String) :
    save storage filename others = save storage filename changes := by
  rw [save, save, snapshots_eq_of_perm hids hsame.snapshots_perm]

/-! ## The form of a state file -/

/-- **The form of what is saved.** The ids ascend and are those of the changes with a raw override,
each snapshot writes its change, and there is no other way to arrange the snapshots so that no id
comes behind a smaller one, by the sign of their difference. -/
structure Canonical (changes : List Change) (kept : List Snapshot) : Prop where
  ascending : kept.Pairwise fun s t => s.changeId.lt t.changeId = true
  ids : ∀ id : SafeInt, (∃ s ∈ kept, s.changeId = .ofSafeInt id) ↔
    ∃ c ∈ changes, c.profile.id = id ∧ ∃ name, c.maps.raw.contains name = true
  writes : ∀ s ∈ kept, ∃ c ∈ changes, s.Writes c
  arranged : ∀ sorted : List Snapshot, sorted.Perm (changes.filterMap Change.snapshot?) →
    (sorted.Pairwise fun s t => (s.changeId.minus t.changeId).isPositive = false) → sorted = kept

/-- What has an id in the file is the change of that id. -/
theorem ids_snapshots (changes : List Change) (id : SafeInt) :
    (∃ s ∈ snapshots changes, s.changeId = .ofSafeInt id) ↔
      ∃ c ∈ changes, c.profile.id = id ∧ ∃ name, c.maps.raw.contains name = true := by
  constructor
  · rintro ⟨s, hs, hid⟩
    obtain ⟨c, hc, hsnapshot⟩ := mem_snapshots.1 hs
    obtain ⟨hraw, hid', -⟩ := OverrideMaps.snapshot?_some hsnapshot
    have heq : c.idNumber = .ofSafeInt id := hid'.symm.trans hid
    exact ⟨c, hc, Number.ofSafeInt_injective heq,
      NameMap.exists_contains_of_isEmpty_eq_false hraw⟩
  · rintro ⟨c, hc, rfl, name, hname⟩
    have hraw := NameMap.isEmpty_eq_false_of_contains hname
    obtain ⟨s, hs⟩ := Option.ne_none_iff_exists'.1 fun hnone : c.snapshot? = none => by
      rw [Change.snapshot?, OverrideMaps.snapshot?_eq_none_iff, hraw] at hnone
      cases hnone
    exact ⟨s, mem_snapshots.2 ⟨c, hc, hs⟩, (OverrideMaps.snapshot?_some hs).2.1⟩

/-- Snapshots whose differences are not positive are in order. -/
theorem inOrder_of_minus {xs : List Snapshot} (hsafe : SafeIds xs)
    (h : xs.Pairwise fun s t => (s.changeId.minus t.changeId).isPositive = false) :
    xs.Pairwise InOrder := by
  refine h.imp_of_mem fun {s t} hs ht hst => ?_
  obtain ⟨a, ha⟩ := hsafe s hs
  obtain ⟨b, hb⟩ := hsafe t ht
  rw [Number.isPositive_minus, ha, hb, Number.lt_ofSafeInt, decide_eq_false_iff_not,
    SafeInt.lt_def] at hst
  rw [InOrder, ha, hb, Number.le_ofSafeInt, decide_eq_true_eq, SafeInt.le_def]
  omega

theorem canonical_snapshots (hids : (changes.map (·.profile.id)).Nodup) :
    Canonical changes (snapshots changes) where
  ascending := List.pairwise_map.1 (ids_pairwise hids)
  ids := ids_snapshots changes
  writes s hs :=
    have ⟨c, hc, hsnapshot⟩ := mem_snapshots.1 hs
    ⟨c, hc, Change.writes_of_snapshot? hsnapshot⟩
  arranged sorted hperm hsorted := by
    have hsafe : SafeIds sorted := fun s hs => safeIds_snapshots changes s (hperm.mem_iff.1 hs)
    refine eq_of_sorted hsafe ?_ (hperm.trans (sortById_perm _).symm) (inOrder_of_minus hsafe hsorted)
      (sortById_pairwise (safeIds_snapshots changes))
    exact (hperm.map _).nodup_iff.2 (ids_nodup_filterMap hids)

/-- **One text for what is kept.** Two lists of changes with distinct ids of which the same is kept
are saved alike, whatever the storage: to the same text, of which there is as much as is said, and
which is of the form above. -/
theorem save_canonical (hids : (changes.map (·.profile.id)).Nodup)
    (hsame : SameKept changes others) :
    ∃ kept text, Canonical changes kept ∧ Json.parse? text = some (StateFile.toJson ⟨kept⟩) ∧
      (∀ storage filename, save storage filename others = save storage filename changes) ∧
      (∀ storage filename written n, save storage filename changes = (written, .ok n) →
        n = kept.length ∧ written.readText filename = .ok (some text)) ∧
      ∀ m filename, ∃ written, save (.memory m) filename changes = (written, .ok kept.length) := by
  have hwritten : ∀ s ∈ snapshots changes, s.Written := fun _ hs => written_of_mem_snapshots hs
  refine ⟨snapshots changes, (StateFile.toJson ⟨snapshots changes⟩).indented,
    canonical_snapshots hids, Json.parse?_indented (StateFile.readable hwritten),
    save_eq hids hsame, ?_, fun m filename => ⟨_, rfl⟩⟩
  intro storage filename written n hsave
  obtain ⟨hwrite, hcount⟩ := save_ok hsave
  exact ⟨hcount, Storage.readText_writeJson hwrite⟩

/-! Two names of which the first has the greater code point and the smaller code unit, and the
smallest and the greatest id, whose difference is no safe integer. -/

def plain (id : SafeInt) : Change where
  profile := ⟨id, none, none, false, false, none, true⟩

/-- Sets an override, which takes effect at once. -/
def setFor (name : String) : Mutation :=
  .setRawOverride name (.unconditional true) .allowed (some noGate)

/-- The changes in one order, with the overrides set in one order. -/
def oneWay : List Change :=
  [(plain .greatest).run [setFor "😀", setFor "ﬀ"], (plain .least).run [setFor "app"]]

/-- The changes in the other order, with the overrides set in the other order; one of the changes
has a listener and has been cleared in between. -/
def otherWay : List Change :=
  [Change.run { plain .least with listener := some 0 }
      [setFor "lib", .clearOverrides, setFor "app"],
    (plain .greatest).run [setFor "ﬀ", setFor "😀"]]

theorem sameKept_ways : SameKept oneWay otherWay := by
  refine ⟨oneWay.reverse, oneWay.reverse_perm.symm, ?_⟩
  have hfirst : ((plain .least).run [setFor "app"]).KeptAlike
      (Change.run { plain .least with listener := some 0 }
        [setFor "lib", .clearOverrides, setFor "app"]) :=
    Change.keptAlike_of_maps (by decide +kernel) (by decide +kernel)
  have hsecond : ((plain .greatest).run [setFor "😀", setFor "ﬀ"]).KeptAlike
      ((plain .greatest).run [setFor "ﬀ", setFor "😀"]) :=
    Change.keptAlike_of_maps (by decide +kernel) (by decide +kernel)
  exact .cons hfirst (.cons hsecond .nil)

theorem ways_canonical :
    (oneWay.map (·.profile.id)).Nodup ∧ SameKept oneWay otherWay ∧
    ∃ kept text, Canonical oneWay kept ∧ Json.parse? text = some (StateFile.toJson ⟨kept⟩) ∧
      (∀ storage filename, save storage filename otherWay = save storage filename oneWay) ∧
      (∀ storage filename written n, save storage filename oneWay = (written, .ok n) →
        n = kept.length ∧ written.readText filename = .ok (some text)) ∧
      ∀ m filename, ∃ written, save (.memory m) filename oneWay = (written, .ok kept.length) :=
  have hids : (oneWay.map (·.profile.id)).Nodup := by decide +kernel
  ⟨hids, sameKept_ways, save_canonical hids sameKept_ways⟩

end Store

end ChangeGate
