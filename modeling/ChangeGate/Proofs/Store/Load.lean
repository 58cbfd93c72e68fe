import ChangeGate.Proofs.Change.Run
import ChangeGate.Proofs.Lists
import ChangeGate.Store
import Mathlib.Data.List.Induction
/-!
# What a load is going to do

The targets of a load are the last changes of their ids (`mem_targets`), so with distinct ids every
change is a target, and the target of a snapshot is the change of its id. A change takes the
snapshot of another one with its profile, and what it reads from it are the maps of that one
(`foldSnapshot_snapshot?`).
-/

namespace ChangeGate

/-- **A change takes what another one of its profile writes.** -/
theorem Change.foldSnapshot_snapshot? {c d : Change} {s : Snapshot} (hc : c.Consistent)
    (hnamed : c.maps.Named) (hs : c.snapshot? = some s) (hprofile : d.profile = c.profile) :
    d.foldSnapshot s = .ok c.maps := by
  have hfold := OverrideMaps.fold_snapshot?_of_covered hc.covered hnamed hs
  obtain ⟨hraw, hid, -⟩ := OverrideMaps.snapshot?_some hs
  have hsame : s.changeId.same d.idNumber = true := by
    rw [hid, idNumber, idNumber, hprofile, Number.same_ofSafeInt]
    exact decide_eq_true rfl
  have hlogging : d.profile.loggingOnly = false := by
    cases hlog : d.profile.loggingOnly with
    | false => rfl
    | true =>
      rw [hc.silent (hprofile ▸ hlog)] at hraw
      cases hraw
  rw [foldSnapshot, if_pos hsame, hfold]
  dsimp only
  rw [hlogging, Bool.and_false, if_neg Bool.false_ne_true]

namespace Store

variable {κ : Type} {ts : List (Target κ)}

/-! ## Targets -/

theorem addTarget_of_not_mem {t : Target κ}
    (h : ∀ u ∈ ts, u.change.profile.id ≠ t.change.profile.id) : addTarget t ts = ts ++ [t] := by
  induction ts with
  | nil => rfl
  | cons u ts ih =>
    rw [addTarget, if_neg (h u List.mem_cons_self),
      ih fun v hv => h v (List.mem_cons_of_mem _ hv), List.cons_append]

/-- **With distinct ids every change is a target.** -/
theorem targets_of_nodup (h : (ts.map (·.change.profile.id)).Nodup) : targets ts = ts := by
  have hitem : ∀ earlier t later, earlier ++ t :: later = [] ++ ts →
      addTarget t earlier = earlier ++ [t] := by
    intro earlier t later hwhole
    rw [List.nil_append] at hwhole
    rw [← hwhole, List.map_append, List.nodup_append] at h
    exact addTarget_of_not_mem fun u hu =>
      h.2.2 u.change.profile.id (List.mem_map_of_mem hu) t.change.profile.id (by simp)
  rw [targets, foldl_append hitem, List.nil_append]

/-- What adding a target keeps: the targets of other ids. -/
theorem mem_addTarget {t u : Target κ} (h : (ts.map (·.change.profile.id)).Nodup) :
    u ∈ addTarget t ts ↔ u = t ∨ u ∈ ts ∧ u.change.profile.id ≠ t.change.profile.id := by
  induction ts with
  | nil => simp [addTarget]
  | cons v ts ih =>
    rw [List.map_cons, List.nodup_cons] at h
    rw [addTarget]
    split
    · rename_i hsame
      -- no other target has the id of the one that is replaced
      have hothers : u ∈ ts → u.change.profile.id ≠ t.change.profile.id := fun hu heq =>
        h.1 (hsame ▸ heq ▸ List.mem_map_of_mem hu)
      rw [List.mem_cons, List.mem_cons]
      constructor
      · rintro (rfl | hu)
        · exact Or.inl rfl
        · exact Or.inr ⟨Or.inr hu, hothers hu⟩
      · rintro (rfl | ⟨rfl | hu, hne⟩)
        · exact Or.inl rfl
        · exact absurd hsame hne
        · exact Or.inr hu
    · rename_i hdiffers
      rw [List.mem_cons, List.mem_cons, ih h.2]
      constructor
      · rintro (rfl | rfl | ⟨hu, hne⟩)
        · exact Or.inr ⟨Or.inl rfl, hdiffers⟩
        · exact Or.inl rfl
        · exact Or.inr ⟨Or.inr hu, hne⟩
      · rintro (rfl | ⟨rfl | hu, hne⟩)
        · exact Or.inr (Or.inl rfl)
        · exact Or.inl rfl
        · exact Or.inr (Or.inr ⟨hu, hne⟩)

/-- Adding a target keeps the ids distinct. -/
theorem nodup_addTarget (t : Target κ) (h : (ts.map (·.change.profile.id)).Nodup) :
    ((addTarget t ts).map (·.change.profile.id)).Nodup := by
  induction ts with
  | nil => simp [addTarget]
  | cons v ts ih =>
    have hcons := List.nodup_cons.1 h
    rw [addTarget]
    split
    · rename_i hsame
      rwa [List.map_cons, ← hsame]
    · rename_i hdiffers
      rw [List.map_cons, List.nodup_cons]
      refine ⟨fun hmem => ?_, ih hcons.2⟩
      obtain ⟨u, hu, hid⟩ := List.mem_map.1 hmem
      rcases (mem_addTarget hcons.2).1 hu with rfl | ⟨hu, -⟩
      · exact hdiffers hid.symm
      · exact hcons.1 (List.mem_map.2 ⟨u, hu, hid⟩)

theorem targets_concat (ts : List (Target κ)) (t : Target κ) :
    targets (ts ++ [t]) = addTarget t (targets ts) := by
  rw [targets, List.foldl_append]
  rfl

/-- **The targets have distinct ids,** whatever ids the given changes have. -/
theorem nodup_targets (ts : List (Target κ)) :
    ((targets ts).map (·.change.profile.id)).Nodup := by
  induction ts using List.reverseRecOn with
  | nil => exact List.nodup_nil
  | append_singleton ts t ih => exact targets_concat ts t ▸ nodup_addTarget t ih

/-- **The targets are the last ones of their ids.** -/
theorem mem_targets {u : Target κ} :
    u ∈ targets ts ↔ ∃ before after, ts = before ++ u :: after ∧
      ∀ v ∈ after, v.change.profile.id ≠ u.change.profile.id := by
  induction ts using List.reverseRecOn with
  | nil => simp [targets]
  | append_singleton ts t ih =>
    rw [targets_concat, mem_addTarget (nodup_targets ts), ih]
    constructor
    · rintro (rfl | ⟨⟨before, after, rfl, hafter⟩, hne⟩)
      · exact ⟨ts, [], rfl, fun _ hmem => absurd hmem List.not_mem_nil⟩
      · refine ⟨before, after ++ [t], by simp, fun v hv => ?_⟩
        rcases List.mem_append.1 hv with hv | hv
        · exact hafter v hv
        · rw [List.mem_singleton.1 hv]
          exact hne.symm
    · rintro ⟨before, after, heq, hafter⟩
      rcases List.eq_nil_or_concat after with rfl | ⟨rest, v, rfl⟩
      · obtain ⟨-, hlast⟩ := List.append_inj' heq rfl
        exact Or.inl (List.singleton_inj.1 hlast).symm
      · rw [List.concat_eq_append, ← List.cons_append, ← List.append_assoc] at heq
        obtain ⟨rfl, hlast⟩ := List.append_inj' heq rfl
        cases List.singleton_inj.1 hlast
        rw [List.concat_eq_append] at hafter
        exact Or.inr ⟨⟨before, rest, rfl, fun w hw => hafter w (List.mem_append_left _ hw)⟩,
          (hafter t (List.mem_append_right _ (List.mem_singleton_self t))).symm⟩

/-- The target of an id is the change that has it. -/
theorem target?_of_mem {t : Target κ} (h : (ts.map (·.change.profile.id)).Nodup) (ht : t ∈ ts) :
    target? ts t.change.idNumber = some t := by
  induction ts with
  | nil => cases ht
  | cons u ts ih =>
    rw [List.map_cons, List.nodup_cons] at h
    rw [target?, List.find?_cons, Change.idNumber, Change.idNumber, Number.same_ofSafeInt]
    rcases List.mem_cons.1 ht with rfl | ht
    · simp
    · have hne : u.change.profile.id ≠ t.change.profile.id := fun heq =>
        h.1 (heq ▸ List.mem_map_of_mem ht)
      rw [decide_eq_false hne]
      exact ih h.2 ht

theorem target?_eq_some_iff {t : Target κ} {id : Number}
    (h : (ts.map (·.change.profile.id)).Nodup) :
    target? ts id = some t ↔ t ∈ ts ∧ id = t.change.idNumber := by
  refine ⟨fun ht => ?_, fun ⟨ht, hid⟩ => hid ▸ target?_of_mem h ht⟩
  have hsame := List.find?_some ht
  rw [Number.same, Bool.and_eq_true, decide_eq_true_iff, decide_eq_true_iff] at hsame
  exact ⟨List.mem_of_find?_eq_some ht, hsame.2.symm⟩

/-! ## Plans -/

/-- **Where every snapshot has a target that takes it,** the plan is to load them all. -/
theorem plan_of_targets {snapshots : List Snapshot}
    (h : ∀ s ∈ snapshots, ∃ t, target? ts s.changeId = some t ∧ t.change.checkSnapshot s = .ok ()) :
    ∃ p, plan ts snapshots = .ok p ∧ p.unknown = [] ∧ p.matched.map (·.2) = snapshots ∧
      ∀ m ∈ p.matched, target? ts m.2.changeId = some m.1 := by
  induction snapshots with
  | nil => exact ⟨⟨[], []⟩, rfl, rfl, rfl, fun _ hm => absurd hm List.not_mem_nil⟩
  | cons s snapshots ih =>
    obtain ⟨t, htarget, hcheck⟩ := h s List.mem_cons_self
    obtain ⟨p, hp, hunknown, hmatched, htargets⟩ :=
      ih fun u hu => h u (List.mem_cons_of_mem _ hu)
    refine ⟨{ p with matched := (t, s) :: p.matched }, ?_, hunknown, ?_, ?_⟩
    · simp only [plan, htarget, hcheck, hp]
    · rw [List.map_cons, hmatched]
    · intro m hm
      rcases List.mem_cons.1 hm with rfl | hm
      · exact htarget
      · exact htargets m hm

/-- **Where no snapshot is refused by its target, there is a plan:** those with a target are loaded,
and the ids of the others reported, both in the order of the file. -/
theorem plan_of_checked {snapshots : List Snapshot}
    (h : ∀ s ∈ snapshots, ∀ t, target? ts s.changeId = some t → t.change.checkSnapshot s = .ok ()) :
    plan ts snapshots = .ok {
      matched := snapshots.filterMap fun s => (target? ts s.changeId).map fun t => (t, s)
      unknown := (snapshots.filter fun s => (target? ts s.changeId).isNone).map (·.changeId) } := by
  induction snapshots with
  | nil => rfl
  | cons s snapshots ih =>
    have hrest := ih fun u hu => h u (List.mem_cons_of_mem _ hu)
    cases htarget : target? ts s.changeId with
    | none => simp [plan, htarget, hrest]
    | some t =>
      have hcheck := h s List.mem_cons_self t htarget
      simp [plan, htarget, hcheck, hrest]

theorem checked_of_plan {snapshots : List Snapshot} {p : Plan κ} (h : plan ts snapshots = .ok p) :
    ∀ s ∈ snapshots, ∀ t, target? ts s.changeId = some t → t.change.checkSnapshot s = .ok () := by
  induction snapshots generalizing p with
  | nil => exact fun s hs => absurd hs List.not_mem_nil
  | cons s snapshots ih =>
    intro u hu t ht
    unfold plan at h
    split at h
    · rename_i hnone
      split at h
      · cases h
      · rename_i hrest
        rcases List.mem_cons.1 hu with rfl | hu
        · rw [hnone] at ht
          cases ht
        · exact ih hrest u hu t ht
    · rename_i target htarget
      split at h
      · cases h
      · rename_i hcheck
        split at h
        · cases h
        · rename_i hrest
          rcases List.mem_cons.1 hu with rfl | hu
          · rw [htarget] at ht
            cases ht
            exact hcheck
          · exact ih hrest u hu t ht

/-- **Where there is none,** a snapshot is refused by its target, which is what is reported. -/
theorem plan_eq_error {snapshots : List Snapshot} {e : ChangeError}
    (h : plan ts snapshots = .error e) :
    ∃ s ∈ snapshots, ∃ t, target? ts s.changeId = some t ∧ t.change.checkSnapshot s = .error e := by
  induction snapshots with
  | nil => cases h
  | cons s snapshots ih =>
    have hlater : plan ts snapshots = .error e → ∃ u ∈ s :: snapshots, ∃ t,
        target? ts u.changeId = some t ∧ t.change.checkSnapshot u = .error e := fun hrest =>
      have ⟨u, hu, ht⟩ := ih hrest
      ⟨u, List.mem_cons_of_mem _ hu, ht⟩
    unfold plan at h
    split at h
    · split at h
      · rename_i hrest
        cases h
        exact hlater hrest
      · cases h
    · rename_i t htarget
      split at h
      · rename_i hcheck
        cases h
        exact ⟨s, List.mem_cons_self, t, htarget, hcheck⟩
      · split at h
        · rename_i hrest
          cases h
          exact hlater hrest
        · cases h

/-! ## The file -/

/-- **What is read of a state file in memory.** -/
theorem read_memory (m : MemoryStorage) (filename : String) :
    read (.memory m) filename =
      match (m.files.get? filename).bind Json.parse? with
      | none => .ok []
      | some v =>
        match (StateFile.check [] (some v)).result with
        | .ok file => .ok file.changes
        | .error issues => .error (.invalid filename issues) := by
  unfold read Storage.readJson Storage.readText
  dsimp only
  cases m.files.get? filename with
  | none => rfl
  | some text =>
    dsimp only [Option.bind_some, Storage.interpret]
    cases Json.parse? text with
    | none => rfl
    | some v =>
      dsimp only
      cases (StateFile.check [] (some v)).result <;> rfl

end Store

end ChangeGate
