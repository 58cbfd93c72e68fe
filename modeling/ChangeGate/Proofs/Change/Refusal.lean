import ChangeGate.Proofs.Change.Loads
import ChangeGate.Proofs.Snapshot.Accepted
/-!
# What a change refuses

A change that mutations lead to from its definition refuses a mutation for one of a few reasons, each
of which is known before anything is done (`apply_eq_error_iff`). In particular no mutation fails half
way through: to reconcile a package can fail for a logging-only change only, and that has nothing
to reconcile.
-/

namespace ChangeGate

namespace Change

variable {c : Change} {m : Mutation} {s : Snapshot} {maps : OverrideMaps} {error : ChangeError}

/-- **Why a snapshot is refused.** It is another change's; or one of its ranges is none, even if it
comes after many that are fine; or it has entries and the change is logging-only. -/
inductive RefusesSnapshot (c : Change) (s : Snapshot) : ChangeError → Prop
  | foreign : s.changeId.same c.idNumber = false →
      RefusesSnapshot c s (.foreignSnapshot s.changeId c)
  | range {valid later : List RawEntry} {e : RawEntry} {error : BoundsError} :
      s.changeId.same c.idNumber = true → s.rawEntries = valid ++ e :: later →
      (∀ entry ∈ valid, ∃ p, entry.override = .ok p) → e.override = .error error →
      RefusesSnapshot c s (.bounds error)
  | loggingOnly : s.changeId.same c.idNumber = true →
      (∀ entry ∈ s.rawEntries, ∃ p, entry.override = .ok p) → s.hasEntries = true →
      c.profile.loggingOnly = true → RefusesSnapshot c s (.loggingOnly c)

/-- **Why a mutation is refused.** -/
inductive Refuses (c : Change) : Mutation → ChangeError → Prop
  | registered {listener : Nat} : c.listener.isSome = true →
      Refuses c (.registerListener listener) (.listenerRegistered c)
  | loggingOnly {name : String} {override : PackageOverride} {verdict : Verdict}
      {version : Option Number} : c.profile.loggingOnly = true →
      Refuses c (.setRawOverride name override verdict version) (.loggingOnly c)
  | denied {name : String} {verdict : Verdict} {version : Option Number} {denial : Denial} :
      c.maps.raw.contains name = true → verdict.enforce c.idNumber name = .error denial →
      Refuses c (.removeRawOverride name verdict version) (.denied denial)
  | snapshot {s : Snapshot} {error : ChangeError} : c.RefusesSnapshot s error →
      Refuses c (.loadOverrides s) error

/-! ## Snapshots -/

/-- **The first bad range is the one that counts,** whatever stands before and after it. -/
theorem overrides_eq_error_iff {entries : List RawEntry} {error : BoundsError} :
    RawEntry.overrides entries = .error error ↔
      ∃ valid e later, entries = valid ++ e :: later ∧
        (∀ entry ∈ valid, ∃ p, entry.override = .ok p) ∧ e.override = .error error := by
  constructor
  · intro h
    induction entries with
    | nil => cases h
    | cons first rest ih =>
      unfold RawEntry.overrides at h
      cases hfirst : first.override with
      | error found =>
        rw [hfirst] at h
        cases h
        exact ⟨[], first, rest, rfl, fun _ hmem => absurd hmem List.not_mem_nil, hfirst⟩
      | ok p =>
        cases hrest : RawEntry.overrides rest with
        | ok ranges => simp [hfirst, hrest] at h
        | error found =>
          simp only [hfirst, hrest] at h
          obtain ⟨valid, e, later, rfl, hvalid, he⟩ := ih (hrest.trans h)
          refine ⟨first :: valid, e, later, rfl, fun entry hmem => ?_, he⟩
          rcases List.mem_cons.1 hmem with rfl | hmem
          · exact ⟨p, hfirst⟩
          · exact hvalid entry hmem
  · rintro ⟨valid, e, later, rfl, hvalid, he⟩
    induction valid with
    | nil => simp [RawEntry.overrides, he]
    | cons first valid ih =>
      obtain ⟨p, hp⟩ := hvalid first List.mem_cons_self
      have hrest := ih fun entry hmem => hvalid entry (List.mem_cons_of_mem _ hmem)
      simp [RawEntry.overrides, hp, hrest]

/-- A snapshot cannot be read exactly if one of its ranges is none. -/
theorem fold_eq_error_iff {error : BoundsError} :
    s.fold = .error error ↔ RawEntry.overrides s.rawEntries = .error error := by
  unfold Snapshot.fold
  cases RawEntry.overrides s.rawEntries <;> simp

/-- Of a snapshot that can be read, all ranges are fine. -/
theorem ranges_of_overrides {entries : List RawEntry} {ranges : List (String × PackageOverride)}
    (h : RawEntry.overrides entries = .ok ranges) :
    ∀ entry ∈ entries, ∃ p, entry.override = .ok p := by
  intro entry hmem
  rw [RawEntry.overrides_eq_ok_iff.1 h] at hmem
  obtain ⟨r, -, rfl⟩ := List.mem_map.1 hmem
  exact ⟨r.2, RawEntry.override_ofOverride r.1 r.2⟩

/-- **A snapshot is refused for one of these reasons,** and for no other. -/
theorem foldSnapshot_eq_error_iff :
    c.foldSnapshot s = .error error ↔ c.RefusesSnapshot s error := by
  constructor
  · intro h
    unfold foldSnapshot at h
    split at h
    · rename_i hid
      split at h
      · rename_i bounds hfold
        cases h
        obtain ⟨valid, e, later, hentries, hvalid, he⟩ :=
          overrides_eq_error_iff.1 (fold_eq_error_iff.1 hfold)
        exact .range hid hentries hvalid he
      · rename_i maps hfold
        split at h
        · rename_i hboth
          cases h
          obtain ⟨hentries, hlogging⟩ := Bool.and_eq_true_iff.1 hboth
          rw [Snapshot.isEmpty_of_fold hfold, Bool.not_not] at hentries
          obtain ⟨ranges, hranges, -⟩ := Snapshot.fold_ok hfold
          exact .loggingOnly hid (ranges_of_overrides hranges) hentries hlogging
        · cases h
    · rename_i hid
      cases h
      exact .foreign (by simpa using hid)
  · intro h
    cases h with
    | foreign hid => rw [foldSnapshot, if_neg (by simp [hid])]
    | range hid hentries hvalid he =>
      rw [foldSnapshot, if_pos hid,
        fold_eq_error_iff.2 (overrides_eq_error_iff.2 ⟨_, _, _, hentries, hvalid, he⟩)]
    | loggingOnly hid hranges hentries hlogging =>
      obtain ⟨ranges, hoverrides⟩ := RawEntry.exists_overrides hranges
      obtain ⟨maps, hfold⟩ := Snapshot.exists_fold hoverrides
      rw [foldSnapshot, if_pos hid, hfold]
      dsimp only
      rw [Snapshot.isEmpty_of_fold hfold, Bool.not_not, hentries, hlogging]
      rfl

theorem checkSnapshot_eq_error_iff :
    c.checkSnapshot s = .error error ↔ c.RefusesSnapshot s error := by
  rw [← foldSnapshot_eq_error_iff, checkSnapshot]
  cases c.foldSnapshot s <;> simp

/-! ## Mutations -/

/-- **Reconciling does not fail** for a change that may have overrides, or that has none. -/
theorem exists_reconcile (package? : Option String) (verdict : Verdict) (version : Option Number)
    (hc : c.profile.loggingOnly = true → c.maps.raw = .empty) :
    ∃ e, c.reconcile package? verdict version = .ok e := by
  cases package? with
  | none => exact ⟨_, rfl⟩
  | some name =>
    unfold reconcile
    dsimp only
    split
    · exact ⟨_, rfl⟩
    · cases hdecision : c.decision? name verdict version with
      | none => exact ⟨_, rfl⟩
      | some decision =>
        dsimp only
        cases hvalue : decision.toBool? with
        | none => exact ⟨_, rfl⟩
        | some enabled =>
          -- there is a value, so there is a raw override
          have hraw : c.maps.raw.contains name = true :=
            contains_raw_of_reconciled? (by rw [reconciled?, hdecision]; exact hvalue)
          have hlogging : ¬ c.profile.loggingOnly = true := fun hlogging => by
            rw [hc hlogging] at hraw
            cases hraw
          dsimp only
          rw [setEvaluated, if_neg hlogging]
          exact ⟨_, rfl⟩

/-- **What is refused fails with its reason,** whatever the state of the change. -/
theorem Refuses.apply_eq (h : c.Refuses m error) : c.apply m = .error error := by
  cases h with
  | registered hsome => rw [apply, registerListener, if_pos hsome]
  | loggingOnly hlogging => rw [apply, setRawOverride, if_pos hlogging]
  | denied hcontains henforce => rw [apply, removeRawOverride, if_pos hcontains, henforce]
  | snapshot hsnapshot => rw [apply, loadOverrides, foldSnapshot_eq_error_iff.2 hsnapshot]

/-- A raw override is set unless the change is logging-only. -/
theorem exists_setRawOverride (hlogging : c.profile.loggingOnly = false) (name : String)
    (override : PackageOverride) (verdict : Verdict) (version : Option Number) :
    ∃ e, c.setRawOverride name override verdict version = .ok e := by
  obtain ⟨inner, hinner⟩ := exists_reconcile (c := c.withRaw (c.maps.raw.insert name override))
    (some name) verdict version fun h => by rw [withRaw_profile, hlogging] at h; cases h
  unfold withRaw at hinner
  rw [setRawOverride, if_neg (by simp [hlogging])]
  dsimp only
  rw [hinner]
  exact ⟨_, rfl⟩

/-- A raw override that is there is removed if the verdict lets it. -/
theorem exists_removeRawOverride (hc : c.profile.loggingOnly = true → c.maps.raw = .empty)
    {name : String} {verdict : Verdict} (hcontains : c.maps.raw.contains name = true)
    (henforce : verdict.enforce c.idNumber name = .ok ()) (version : Option Number) :
    ∃ e, c.removeRawOverride name verdict version = .ok e := by
  obtain ⟨inner, hinner⟩ := exists_reconcile (c := c.withRaw (c.maps.raw.erase name)) (some name)
    verdict version fun h => by rw [hc h] at hcontains; cases hcontains
  unfold withRaw at hinner
  rw [removeRawOverride, if_pos hcontains, henforce]
  dsimp only
  rw [hinner]
  exact ⟨_, rfl⟩

/-- **A mutation is refused for one of these reasons,** and for no other, by a change that
mutations lead to. -/
theorem apply_eq_error_iff (hc : c.Consistent) :
    c.apply m = .error error ↔ c.Refuses m error := by
  refine ⟨fun h => ?_, Refuses.apply_eq⟩
  have hempty : c.profile.loggingOnly = true → c.maps.raw = .empty := fun hlogging => by
    rw [hc.silent hlogging]
    rfl
  cases m with
  | registerListener listener =>
    change c.registerListener listener = _ at h
    unfold registerListener at h
    split at h
    · rename_i hsome
      cases h
      exact .registered hsome
    · cases h
  | setRawOverride name override verdict version =>
    cases hlogging : c.profile.loggingOnly with
    | true =>
      have hrefuses : c.Refuses (.setRawOverride name override verdict version) (.loggingOnly c) :=
        .loggingOnly hlogging
      rw [hrefuses.apply_eq] at h
      cases h
      exact hrefuses
    | false =>
      obtain ⟨e, he⟩ := exists_setRawOverride hlogging name override verdict version
      rw [apply, he] at h
      cases h
  | recheck package verdict version =>
    obtain ⟨e, he⟩ := exists_reconcile package verdict version hempty
    rw [apply, he] at h
    cases h
  | removeRawOverride name verdict version =>
    cases hcontains : c.maps.raw.contains name with
    | false => rw [apply, removeRawOverride, if_neg (by simp [hcontains])] at h; cases h
    | true =>
      cases henforce : verdict.enforce c.idNumber name with
      | error denial =>
        have hrefuses : c.Refuses (.removeRawOverride name verdict version) (.denied denial) :=
          .denied hcontains henforce
        rw [hrefuses.apply_eq] at h
        cases h
        exact hrefuses
      | ok _ =>
        obtain ⟨e, he⟩ := exists_removeRawOverride hempty hcontains henforce version
        rw [apply, he] at h
        cases h
  | clearOverrides => cases h
  | loadOverrides s =>
    cases hfold : c.foldSnapshot s with
    | error found =>
      have hrefuses : c.Refuses (.loadOverrides s) found :=
        .snapshot (foldSnapshot_eq_error_iff.1 hfold)
      rw [hrefuses.apply_eq] at h
      cases h
      exact hrefuses
    | ok maps =>
      rw [apply_loadOverrides hfold] at h
      cases h

end Change

end ChangeGate
