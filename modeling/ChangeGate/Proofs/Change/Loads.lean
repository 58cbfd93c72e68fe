import ChangeGate.Proofs.Change.Run
/-!
# Snapshots loaded one after the other

Whether a change takes a snapshot depends on its profile alone, never on the overrides that it has
(`foldSnapshot_of_profile`). So what it takes once it takes after any mutations, and a load into it
merges what the snapshot brings. Once it has been cleared, `OverrideMaps.mergeAll` of the snapshots
from nothing is all that is left (`run_clear_loads`).
-/

namespace ChangeGate

/-- **The maps after some snapshots,** merged in one after the other. -/
def OverrideMaps.mergeAll (m : OverrideMaps) : List Snapshot → Except BoundsError OverrideMaps
  | [] => .ok m
  | s :: rest =>
    match s.fold with
    | .error e => .error e
    | .ok maps => (m.merge maps).mergeAll rest

namespace Change

variable {c d : Change} {s : Snapshot} {maps : OverrideMaps}

theorem same_idNumber (c : Change) : c.idNumber.same c.idNumber = true := by
  rw [idNumber, Number.same_ofSafeInt]
  exact decide_eq_true rfl

/-- Nothing but the id itself is the same number. -/
theorem same_idNumber_iff {x : Number} : x.same c.idNumber = true ↔ x = c.idNumber := by
  refine ⟨fun h => ?_, fun h => h ▸ c.same_idNumber⟩
  exact of_decide_eq_true (Bool.and_eq_true_iff.1 h).2

theorem foldSnapshot_eq_ok_iff :
    c.foldSnapshot s = .ok maps ↔
      s.changeId.same c.idNumber = true ∧ s.fold = .ok maps ∧
        (c.profile.loggingOnly = true → maps.isEmpty = true) := by
  refine ⟨foldSnapshot_ok, fun ⟨hid, hfold, hpermitted⟩ => ?_⟩
  rw [foldSnapshot, if_pos hid, hfold]
  dsimp only
  rw [if_neg]
  rw [Bool.and_eq_true, Bool.not_eq_true']
  rintro ⟨hentries, hlogging⟩
  rw [hpermitted hlogging] at hentries
  cases hentries

/-- **Only the profile decides** whether a snapshot is taken, and what it brings. -/
theorem foldSnapshot_of_profile (hprofile : d.profile = c.profile)
    (h : c.foldSnapshot s = .ok maps) : d.foldSnapshot s = .ok maps := by
  rw [foldSnapshot_eq_ok_iff, idNumber] at h ⊢
  rwa [hprofile]

theorem checkSnapshot_eq_ok_iff :
    c.checkSnapshot s = .ok () ↔ ∃ maps, c.foldSnapshot s = .ok maps := by
  unfold checkSnapshot
  cases c.foldSnapshot s <;> simp

/-- **A snapshot that can be read is refused by a logging-only change alone,** and only if it has an
entry. -/
theorem checkSnapshot_of_fold (hid : s.changeId = c.idNumber) (hfold : s.fold = .ok maps)
    (hempty : maps.isEmpty = !s.hasEntries) :
    c.checkSnapshot s =
      if s.hasEntries && c.profile.loggingOnly then .error (.loggingOnly c) else .ok () := by
  have hsame : s.changeId.same c.idNumber = true := hid ▸ c.same_idNumber
  rw [checkSnapshot, foldSnapshot, if_pos hsame, hfold]
  dsimp only
  rw [hempty, Bool.not_not]
  cases s.hasEntries && c.profile.loggingOnly <;> rfl

/-- **What is taken is merged in,** and one event tells of it if there is anything to merge. The
listener is not told. -/
theorem apply_loadOverrides (h : c.foldSnapshot s = .ok maps) :
    c.apply (.loadOverrides s) = .ok {
      change := { c with maps := c.maps.merge maps }
      events := if maps.isEmpty then [] else [c.event .loaded] } := by
  rw [apply, loadOverrides, h]
  dsimp only
  cases hempty : maps.isEmpty with
  | true =>
    rw [OverrideMaps.isEmpty_iff.1 hempty]
    rfl
  | false => rfl

/-- **Snapshots that are taken are merged in their order.** -/
theorem run_loads {snapshots : List Snapshot}
    (h : ∀ s ∈ snapshots, ∃ maps, c.foldSnapshot s = .ok maps) :
    ∃ maps, c.maps.mergeAll snapshots = .ok maps ∧
      c.run (snapshots.map .loadOverrides) = { c with maps } := by
  induction snapshots generalizing c with
  | nil => exact ⟨c.maps, rfl, rfl⟩
  | cons s snapshots ih =>
    obtain ⟨maps, hmaps⟩ := h s List.mem_cons_self
    obtain ⟨merged, hmerged, hrun⟩ := @ih { c with maps := c.maps.merge maps } fun t ht => by
      obtain ⟨folded, hfolded⟩ := h t (List.mem_cons_of_mem _ ht)
      exact ⟨folded, foldSnapshot_of_profile (c := c) rfl hfolded⟩
    refine ⟨merged, ?_, ?_⟩
    · rw [OverrideMaps.mergeAll, (foldSnapshot_ok hmaps).2.1]
      exact hmerged
    · rw [List.map_cons, run_cons, after_of_ok (apply_loadOverrides hmaps), hrun]

/-- **After a clear nothing else is left.** -/
theorem run_clear_loads {snapshots : List Snapshot}
    (h : ∀ s ∈ snapshots, ∃ maps, c.foldSnapshot s = .ok maps) :
    ∃ maps, OverrideMaps.empty.mergeAll snapshots = .ok maps ∧
      c.run (.clearOverrides :: snapshots.map .loadOverrides) = { c with maps } := by
  obtain ⟨maps, hmaps, hrun⟩ := @run_loads c.clearOverrides.change snapshots fun s hs => by
    obtain ⟨folded, hfolded⟩ := h s hs
    exact ⟨folded, foldSnapshot_of_profile (c := c) rfl hfolded⟩
  exact ⟨maps, hmaps, hrun⟩

end Change

end ChangeGate
