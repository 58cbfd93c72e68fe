import ChangeGate.Proofs.Change.Run
import ChangeGate.Proofs.Snapshot.Schema
import ChangeGate.Proofs.Storage
import ChangeGate.Store
/-!
# What is saved

A state file holds the snapshots of the changes that have one, in the order of their ids. It is
read back as it was saved, with one exception: an override for the empty name is saved, but no
file with such an entry is accepted (`read_save`).
-/

namespace ChangeGate

namespace Store

/-! ## The order of ids -/

theorem insertById_perm (s : Snapshot) (l : List Snapshot) : (insertById s l).Perm (s :: l) := by
  induction l with
  | nil => exact .refl _
  | cons t l ih =>
    rw [insertById]
    split
    · exact .refl _
    · exact (ih.cons t).trans (.swap s t l)

/-- **Sorting keeps every snapshot.** -/
theorem sortById_perm (l : List Snapshot) : (sortById l).Perm l := by
  induction l with
  | nil => exact .refl _
  | cons s l ih => exact (insertById_perm s (sortById l)).trans (ih.cons s)

/-- The ids of two snapshots are in order. -/
def InOrder (s t : Snapshot) : Prop :=
  s.changeId.le t.changeId = true

/-- Ids that are safe integers, as all that are saved are. -/
def SafeIds (l : List Snapshot) : Prop :=
  ∀ s ∈ l, ∃ id, s.changeId = .ofSafeInt id

theorem insertById_pairwise {s : Snapshot} {l : List Snapshot} (hsafe : SafeIds (s :: l))
    (h : l.Pairwise InOrder) : (insertById s l).Pairwise InOrder := by
  induction l with
  | nil => exact .cons (fun _ hmem => absurd hmem List.not_mem_nil) .nil
  | cons t l ih =>
    obtain ⟨htl, hl⟩ := List.pairwise_cons.1 h
    obtain ⟨a, ha⟩ := hsafe s List.mem_cons_self
    obtain ⟨b, hb⟩ := hsafe t (by simp)
    rw [insertById]
    split
    · rename_i hle
      -- it goes before `t`, and so before all that `t` goes before
      refine .cons (fun u hu => ?_) h
      rcases List.mem_cons.1 hu with rfl | hu
      · exact hle
      · obtain ⟨c, hc⟩ := hsafe u (by simp [hu])
        have htu := htl u hu
        rw [InOrder, ha, hc, Number.le_ofSafeInt, decide_eq_true_eq]
        rw [InOrder, hb, hc, Number.le_ofSafeInt, decide_eq_true_eq] at htu
        rw [ha, hb, Number.le_ofSafeInt, decide_eq_true_eq] at hle
        exact Int.le_trans hle htu
    · rename_i hle
      -- it goes somewhere behind `t`, which it does not precede
      refine .cons (fun u hu => ?_) (ih (fun u hu => hsafe u ?_) hl)
      · rcases List.mem_cons.1 ((insertById_perm s l).mem_iff.1 hu) with rfl | hu
        · rw [InOrder, ha, hb, Number.le_ofSafeInt, decide_eq_true_eq]
          rw [ha, hb, Number.le_ofSafeInt, decide_eq_true_eq, SafeInt.le_def, Int.not_le] at hle
          exact Int.le_of_lt hle
        · exact htl u hu
      · rcases List.mem_cons.1 hu with rfl | hu
        · exact List.mem_cons_self
        · simp [hu]

/-- **Sorted by id.** -/
theorem sortById_pairwise {l : List Snapshot} (hsafe : SafeIds l) :
    (sortById l).Pairwise InOrder := by
  induction l with
  | nil => exact .nil
  | cons s l ih =>
    refine insertById_pairwise (fun t ht => hsafe t ?_)
      (ih fun t ht => hsafe t (List.mem_cons_of_mem _ ht))
    exact ((sortById_perm l).cons s).mem_iff.1 ht

/-- A snapshot goes before those of its own id. -/
theorem filter_insertById (id : SafeInt) (s : Snapshot) (l : List Snapshot) :
    (insertById s l).filter (fun t => t.changeId = .ofSafeInt id) =
      (s :: l).filter fun t => t.changeId = .ofSafeInt id := by
  induction l with
  | nil => rfl
  | cons t l ih =>
    rw [insertById]
    split
    · rfl
    · rename_i hle
      rw [List.filter_cons, ih]
      by_cases ht : t.changeId = .ofSafeInt id
      · have hs : s.changeId ≠ .ofSafeInt id := by
          intro hs
          rw [hs, ht, Number.le_ofSafeInt] at hle
          exact hle (by simp [SafeInt.le_def])
        simp [ht, hs]
      · by_cases hs : s.changeId = .ofSafeInt id <;> simp [ht, hs]

/-- **Snapshots of one id stay in their order.** -/
theorem filter_sortById (id : SafeInt) (l : List Snapshot) :
    (sortById l).filter (fun t => t.changeId = .ofSafeInt id) =
      l.filter fun t => t.changeId = .ofSafeInt id := by
  induction l with
  | nil => rfl
  | cons s l ih =>
    change (insertById s (sortById l)).filter _ = _
    rw [filter_insertById, List.filter_cons, ih, List.filter_cons]

/-! ## Reading what was saved -/

variable {storage written : Storage} {filename : String} {changes : List Change} {n : Nat}

/-- A saved snapshot is that of a change with a raw override. -/
theorem mem_snapshots {s : Snapshot} :
    s ∈ snapshots changes ↔ ∃ c ∈ changes, c.snapshot? = some s := by
  rw [snapshots, (sortById_perm _).mem_iff, List.mem_filterMap]

theorem written_of_mem_snapshots {s : Snapshot} (hs : s ∈ snapshots changes) : s.Written := by
  obtain ⟨c, -, hc⟩ := mem_snapshots.1 hs
  exact OverrideMaps.written_of_snapshot? hc

theorem safeIds_snapshots (changes : List Change) : SafeIds (changes.filterMap Change.snapshot?) :=
  fun s hs =>
    have hmem : s ∈ snapshots changes := (sortById_perm _).mem_iff.2 hs
    (written_of_mem_snapshots hmem).changeId

/-! ## The ids of a state file -/

theorem map_changeId_filterMap (changes : List Change) :
    (changes.filterMap Change.snapshot?).map (·.changeId) =
      (changes.filter fun c => !c.maps.raw.isEmpty).map (·.idNumber) := by
  induction changes with
  | nil => rfl
  | cons c changes ih =>
    cases hsnapshot : c.snapshot? with
    | none =>
      have hraw := OverrideMaps.snapshot?_eq_none_iff.1 hsnapshot
      rw [List.filterMap_cons, hsnapshot, List.filter_cons, hraw]
      exact ih
    | some s =>
      obtain ⟨hraw, hid, -⟩ := OverrideMaps.snapshot?_some hsnapshot
      rw [List.filterMap_cons, hsnapshot, List.filter_cons, hraw]
      exact (congrArg (s.changeId :: ·) ih).trans (by rw [hid]; rfl)

/-- **The ids of the changes that have a raw override.** -/
theorem ids_perm (changes : List Change) :
    ((snapshots changes).map (·.changeId)).Perm
      ((changes.filter fun c => !c.maps.raw.isEmpty).map (·.idNumber)) := by
  rw [← map_changeId_filterMap]
  exact (sortById_perm _).map _

theorem ids_nodup (h : (changes.map (·.profile.id)).Nodup) :
    ((snapshots changes).map (·.changeId)).Nodup := by
  have hids : (changes.map (·.idNumber)).Nodup := by
    rw [List.Nodup, List.pairwise_map] at h ⊢
    exact h.imp fun hne heq => hne (Number.ofSafeInt_injective heq)
  exact (ids_perm changes).nodup_iff.2 (List.Pairwise.sublist (List.filter_sublist.map _) hids)

/-- **Distinct ids ascend strictly.** -/
theorem ids_pairwise (h : (changes.map (·.profile.id)).Nodup) :
    ((snapshots changes).map (·.changeId)).Pairwise fun a b => a.lt b = true := by
  have hne := ids_nodup h
  rw [List.Nodup, List.pairwise_map] at hne
  rw [List.pairwise_map]
  refine ((sortById_pairwise (safeIds_snapshots changes)).and hne).imp_of_mem ?_
  rintro s t hs ht ⟨hle, hne⟩
  obtain ⟨a, ha⟩ := (written_of_mem_snapshots hs).changeId
  obtain ⟨b, hb⟩ := (written_of_mem_snapshots ht).changeId
  rw [InOrder, ha, hb, Number.le_ofSafeInt, decide_eq_true_eq, SafeInt.le_def] at hle
  rw [ha, hb, Number.lt_ofSafeInt, decide_eq_true_eq, SafeInt.lt_def]
  have hval : a.val ≠ b.val := fun heq => hne (by rw [ha, hb, SafeInt.ext heq])
  omega

/-! ## Acceptance -/

/-- **What the check of the state file makes of a saved file.** -/
theorem reads_snapshots (changes : List Change) :
    StateFile.check.Reads (some (StateFile.toJson ⟨snapshots changes⟩)) ⟨snapshots changes⟩
      (∀ c ∈ changes, c.maps.raw.isEmpty = false → c.maps.Named) := by
  intro path
  refine (StateFile.reads (fun s hs => written_of_mem_snapshots hs) path).congr ⟨?_, ?_⟩
  · intro hnamed c hc hraw
    cases hsnapshot : c.snapshot? with
    | none =>
      rw [Change.snapshot?, OverrideMaps.snapshot?_eq_none_iff, hraw] at hsnapshot
      cases hsnapshot
    | some s =>
      exact (OverrideMaps.named_iff_of_snapshot? hsnapshot).1
        (hnamed s (mem_snapshots.2 ⟨c, hc, hsnapshot⟩))
  · intro hnamed s hs
    obtain ⟨c, hc, hsnapshot⟩ := mem_snapshots.1 hs
    exact (OverrideMaps.named_iff_of_snapshot? hsnapshot).2
      (hnamed c hc (OverrideMaps.snapshot?_some hsnapshot).1)

theorem save_ok (h : save storage filename changes = (written, .ok n)) :
    storage.writeJson filename (StateFile.toJson ⟨snapshots changes⟩) = (written, .ok ()) ∧
      n = (snapshots changes).length := by
  unfold save at h
  dsimp only at h
  split at h
  · rename_i hwrite
    cases h
    exact ⟨hwrite, rfl⟩
  · cases h

/-- A file of snapshots as changes write them is read back, if none has an entry of the empty
name. -/
theorem read_of_written {kept : List Snapshot} (hwritten : ∀ s ∈ kept, s.Written)
    (hnamed : ∀ s ∈ kept, s.Named)
    (h : storage.writeJson filename (StateFile.toJson ⟨kept⟩) = (written, .ok ())) :
    read written filename = .ok kept := by
  rw [read, Storage.readJson_writeJson (StateFile.readable hwritten) h,
    (StateFile.reads hwritten []).result_ok hnamed]

/-- **A saved file, as the reader finds it.** -/
theorem read_of_save (h : save storage filename changes = (written, .ok n)) :
    read written filename =
      match (StateFile.check [] (some (StateFile.toJson ⟨snapshots changes⟩))).result with
      | .ok file => .ok file.changes
      | .error issues => .error (.invalid filename issues) := by
  have hreadable : (StateFile.toJson ⟨snapshots changes⟩).Readable :=
    StateFile.readable fun s hs => written_of_mem_snapshots hs
  rw [read, Storage.readJson_writeJson hreadable (save_ok h).1]
  cases (StateFile.check [] (some (StateFile.toJson ⟨snapshots changes⟩))).result <;> rfl

theorem read_of_save_named (h : save storage filename changes = (written, .ok n))
    (hnamed : ∀ c ∈ changes, c.maps.raw.isEmpty = false → c.maps.Named) :
    read written filename = .ok (snapshots changes) := by
  rw [read_of_save h, (reads_snapshots changes []).result_ok hnamed]

theorem read_of_save_unnamed (h : save storage filename changes = (written, .ok n))
    (hunnamed : ¬ ∀ c ∈ changes, c.maps.raw.isEmpty = false → c.maps.Named) :
    ∃ issues, read written filename = .error (.invalid filename issues) := by
  obtain ⟨issues, hissues⟩ := (reads_snapshots changes []).result_error hunnamed
  exact ⟨issues, by rw [read_of_save h, hissues]⟩

/-- **A saved file is readable exactly if it keeps nothing for the empty name.** What is read then
is the snapshots of the changes that have one, as many as were counted, in the order of ids; else
there is an issue, and nothing is read of any change. -/
theorem read_save (h : save storage filename changes = (written, .ok n)) :
    n = (snapshots changes).length ∧
    (snapshots changes).Perm (changes.filterMap Change.snapshot?) ∧
    (snapshots changes).Pairwise InOrder ∧
    (∀ id, (snapshots changes).filter (fun s => s.changeId = .ofSafeInt id) =
      (changes.filterMap Change.snapshot?).filter fun s => s.changeId = .ofSafeInt id) ∧
    ((∀ c ∈ changes, c.maps.raw.isEmpty = false → c.maps.Named) →
      read written filename = .ok (snapshots changes)) ∧
    ((∃ c ∈ changes, c.maps.raw.isEmpty = false ∧ ¬ c.maps.Named) →
      ∃ issues, read written filename = .error (.invalid filename issues)) := by
  refine ⟨(save_ok h).2, sortById_perm _, sortById_pairwise (safeIds_snapshots changes),
    fun id => filter_sortById id _, read_of_save_named h, ?_⟩
  rintro ⟨c, hc, hraw, hunnamed⟩
  exact read_of_save_unnamed h fun hnamed => hunnamed (hnamed c hc hraw)

/-- A change for which an override of the empty name was set. -/
def nameless : Change where
  profile := ⟨.one, none, none, false, false, none, false⟩
  maps := ⟨NameMap.empty.insert "" (.unconditional true), .empty⟩

/-- The storage after that change was saved. -/
def savedNameless : Storage :=
  (save (.memory {}) defaultFilename [nameless]).1

theorem nameless_unnamed :
    ∃ c ∈ [nameless], c.maps.raw.isEmpty = false ∧ ¬ c.maps.Named := by
  refine ⟨nameless, List.mem_singleton_self _, by decide, fun hnamed => ?_⟩
  have hempty : nameless.maps.raw.contains "" = false := hnamed.1
  revert hempty
  decide

theorem read_savedNameless :
    save (.memory {}) defaultFilename [nameless] = (savedNameless, .ok 1) ∧
    ∃ issues, read savedNameless defaultFilename = .error (.invalid defaultFilename issues) :=
  have hsave : save (.memory {}) defaultFilename [nameless] = (savedNameless, .ok 1) := rfl
  ⟨hsave, (read_save hsave).2.2.2.2.2 nameless_unnamed⟩

theorem nameless_reachable : nameless.Reachable fun _ => True := by
  have hdefined : Change.Reachable (fun _ => True)
      { profile := ⟨.one, none, none, false, false, none, false⟩ } :=
    .defined (d := { id := .ofSafeInt .one })
      (by simp [Change.ofDefinition, Definition.profile?, Definition.gate])
  exact .mutated (m := .setRawOverride "" (.unconditional true) .allowed none) hdefined trivial

/-- **Not every saved file is readable.** -/
theorem not_read_save :
    ¬ ∀ (storage written : Storage) (filename : String) (changes : List Change) (n : Nat),
      (∀ c ∈ changes, c.Reachable fun _ => True) →
      save storage filename changes = (written, .ok n) →
      read written filename = .ok (snapshots changes) := by
  intro hread
  have hsave : save (.memory {}) defaultFilename [nameless] = (savedNameless, .ok 1) := rfl
  have hok := hread _ _ _ _ _ (by simpa using nameless_reachable) hsave
  obtain ⟨c, hc, hraw, hunnamed⟩ := nameless_unnamed
  obtain ⟨issues, hissues⟩ := read_of_save_unnamed hsave fun hnamed => hunnamed (hnamed c hc hraw)
  rw [hissues] at hok
  cases hok

end Store

end ChangeGate
