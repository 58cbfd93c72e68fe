import ChangeGate.Change.Mutation
import ChangeGate.Proofs.NameMap
/-!
# What a mutation does to the maps

One statement for each mutation that is let through: which entries of the two maps it writes and
which it leaves alone. `reconcile_get?` is the core. Reconciling touches the evaluated entry of
its own package only, and that entry becomes `reconciled?`, whatever it was before.
-/

namespace ChangeGate

namespace Change

variable {c : Change} {e : Effect}

/-- The change with other raw overrides. -/
def withRaw (c : Change) (raw : NameMap PackageOverride) : Change :=
  { c with maps := { c.maps with raw } }

/-- The change with other evaluated overrides. -/
def withEvaluated (c : Change) (evaluated : NameMap Bool) : Change :=
  { c with maps := { c.maps with evaluated } }

@[simp] theorem withRaw_profile (raw : NameMap PackageOverride) :
    (c.withRaw raw).profile = c.profile := rfl

@[simp] theorem withRaw_raw (raw : NameMap PackageOverride) : (c.withRaw raw).maps.raw = raw := rfl

@[simp] theorem withRaw_evaluated (raw : NameMap PackageOverride) :
    (c.withRaw raw).maps.evaluated = c.maps.evaluated := rfl

@[simp] theorem withEvaluated_profile (evaluated : NameMap Bool) :
    (c.withEvaluated evaluated).profile = c.profile := rfl

@[simp] theorem withEvaluated_raw (evaluated : NameMap Bool) :
    (c.withEvaluated evaluated).maps.raw = c.maps.raw := rfl

@[simp] theorem withEvaluated_evaluated (evaluated : NameMap Bool) :
    (c.withEvaluated evaluated).maps.evaluated = evaluated := rfl

/-- **The evaluated value that reconciling gives a package:** what the raw override says of the
version, where the verdict allows it to say anything. -/
def reconciled? (c : Change) (name : String) (verdict : Verdict) (version : Option Number) :
    Option Bool :=
  (c.decision? name verdict version).bind Decision.toBool?

/-- Only a package with a raw override is given a value. -/
theorem contains_raw_of_reconciled? {name : String} {verdict : Verdict} {version : Option Number}
    {enabled : Bool} (h : c.reconciled? name verdict version = some enabled) :
    c.maps.raw.contains name = true := by
  obtain ⟨decision, hdecision, -⟩ := Option.bind_eq_some_iff.1 h
  unfold decision? at hdecision
  split at hdecision
  · rename_i override v hraw
    exact NameMap.contains_iff.2 ⟨override, hraw⟩
  · cases hdecision

/-! ## Reconciling -/

/-- A removal leaves no entry of the package and touches no other. -/
theorem removeEvaluated_get? (c : Change) (name other : String) :
    (c.removeEvaluated name).change.maps.evaluated.get? other =
      if name = other then none else c.maps.evaluated.get? other := by
  unfold removeEvaluated
  split
  · exact NameMap.get?_erase _ name other
  · rename_i hnot
    by_cases h : name = other
    · subst h
      simpa [NameMap.contains] using hnot
    · simp [h]

theorem removeEvaluated_change (c : Change) (name : String) :
    (c.removeEvaluated name).change =
      c.withEvaluated (c.removeEvaluated name).change.maps.evaluated := by
  unfold removeEvaluated
  split <;> rfl

/-- **The three ways to reconcile.** There is no package; or there is nothing to hold for it, and
its entry goes; or there is a value, and the entry becomes that. -/
theorem reconcile_cases {package : Option String} {verdict : Verdict} {version : Option Number}
    (h : c.reconcile package verdict version = .ok e) :
    ((∀ name, package = some name → name = "") ∧ e = { change := c, answer := some false }) ∨
    (∃ name, package = some name ∧ name ≠ "" ∧ c.reconciled? name verdict version = none ∧
      e = { c.removeEvaluated name with
        answer := some (c.decision? name verdict version).isSome }) ∨
    (∃ name enabled, package = some name ∧ name ≠ "" ∧ c.profile.loggingOnly = false ∧
      c.reconciled? name verdict version = some enabled ∧
      e = {
        change := c.withEvaluated (c.maps.evaluated.insert name enabled)
        events := [c.packageEvent .evaluatedSet name (some enabled)]
        notify := some name
        answer := some true }) := by
  unfold reconcile at h
  split at h
  · cases h
    exact Or.inl ⟨by simp, rfl⟩
  · rename_i name
    split at h
    · rename_i hempty
      cases h
      exact Or.inl ⟨by simpa using hempty, rfl⟩
    · rename_i hname
      have hne : name ≠ "" := by simpa using hname
      refine Or.inr ?_
      -- without a decision the entry goes, as it does if nothing is decided for this version;
      -- only the answer tells the two apart
      cases hdecision : c.decision? name verdict version with
      | none =>
        simp only [hdecision, Except.ok.injEq] at h
        exact Or.inl ⟨name, rfl, hne, by simp [reconciled?, hdecision], by simp [← h, hdecision]⟩
      | some decision =>
        simp only [hdecision] at h
        cases hvalue : decision.toBool? with
        | none =>
          simp only [hvalue, Except.ok.injEq] at h
          exact Or.inl ⟨name, rfl, hne, by simp [reconciled?, hdecision, hvalue],
            by simp [← h, hdecision]⟩
        | some enabled =>
          simp only [hvalue, setEvaluated] at h
          split at h
          · rename_i hset
            split at hset <;> cases hset
            cases h
          · rename_i effect hset
            split at hset
            · cases hset
            · rename_i hlogging
              cases hset
              cases h
              exact Or.inr ⟨name, enabled, rfl, hne, by simpa using hlogging,
                by simp [reconciled?, hdecision, hvalue], rfl⟩

/-- **Reconciling changes nothing but evaluated entries.** -/
theorem reconcile_change {package : Option String} {verdict : Verdict} {version : Option Number}
    (h : c.reconcile package verdict version = .ok e) :
    e.change = c.withEvaluated e.change.maps.evaluated := by
  rcases reconcile_cases h with ⟨-, rfl⟩ | ⟨name, -, -, -, rfl⟩ | ⟨name, enabled, -, -, -, -, rfl⟩
  · rfl
  · exact removeEvaluated_change c name
  · rfl

theorem reconcile_profile {package : Option String} {verdict : Verdict} {version : Option Number}
    (h : c.reconcile package verdict version = .ok e) : e.change.profile = c.profile := by
  rw [reconcile_change h, withEvaluated_profile]

theorem reconcile_raw {package : Option String} {verdict : Verdict} {version : Option Number}
    (h : c.reconcile package verdict version = .ok e) : e.change.maps.raw = c.maps.raw := by
  rw [reconcile_change h, withEvaluated_raw]

/-- **And of these only its own package's,** which is what `reconciled?` says from then on. -/
theorem reconcile_get? {package : Option String} {verdict : Verdict} {version : Option Number}
    (h : c.reconcile package verdict version = .ok e) (other : String) :
    e.change.maps.evaluated.get? other =
      if package = some other ∧ other ≠ "" then c.reconciled? other verdict version
      else c.maps.evaluated.get? other := by
  rcases reconcile_cases h with
    ⟨hempty, rfl⟩ | ⟨name, rfl, hne, hnone, rfl⟩ | ⟨name, enabled, rfl, hne, -, hsome, rfl⟩
  · rw [if_neg]
    rintro ⟨hpackage, hother⟩
    exact hother (hempty other hpackage)
  · rw [removeEvaluated_get?]
    by_cases hother : name = other
    · subst hother
      simp [hne, hnone]
    · simp [hother]
  · rw [withEvaluated_evaluated, NameMap.get?_insert]
    by_cases hother : name = other
    · subst hother
      simp [hne, hsome]
    · simp [hother]

/-! ## The other mutations -/

theorem registerListener_ok {listener : Nat} (h : c.registerListener listener = .ok e) :
    e = { change := { c with listener := some listener } } := by
  unfold registerListener at h
  split at h <;> cases h
  rfl

/-- **Setting a raw override:** it is recorded, and its package is reconciled with it. -/
theorem setRawOverride_ok {name : String} {override : PackageOverride} {verdict : Verdict}
    {version : Option Number} (h : c.setRawOverride name override verdict version = .ok e) :
    c.profile.loggingOnly = false ∧
    ∃ inner : Effect,
      (c.withRaw (c.maps.raw.insert name override)).reconcile (some name) verdict version =
        .ok inner ∧
      e = { inner with
        events := c.packageEvent .rawSet name (some override.enabled) :: inner.events
        answer := none } := by
  unfold setRawOverride at h
  split at h
  · cases h
  · rename_i hlogging
    refine ⟨by simpa using hlogging, ?_⟩
    dsimp only at h
    split at h
    · cases h
    · rename_i inner hinner
      cases h
      exact ⟨inner, hinner, rfl⟩

/-- **Removing a raw override:** nothing happens where there is none; else it goes, and its
package is reconciled without it. -/
theorem removeRawOverride_ok {name : String} {verdict : Verdict} {version : Option Number}
    (h : c.removeRawOverride name verdict version = .ok e) :
    (c.maps.raw.contains name = false ∧ e = { change := c, answer := some false }) ∨
    (c.maps.raw.contains name = true ∧ verdict.enforce c.idNumber name = .ok () ∧
      ∃ inner : Effect,
        (c.withRaw (c.maps.raw.erase name)).reconcile (some name) verdict version =
          .ok inner ∧
        e = { inner with
          events := c.packageEvent .rawRemoved name :: inner.events
          answer := some true }) := by
  unfold removeRawOverride at h
  split at h
  · rename_i hcontains
    refine Or.inr ⟨hcontains, ?_⟩
    split at h
    · cases h
    · rename_i henforce
      refine ⟨henforce, ?_⟩
      dsimp only at h
      split at h
      · cases h
      · rename_i inner hinner
        cases h
        exact ⟨inner, hinner, rfl⟩
  · rename_i hcontains
    cases h
    exact Or.inl ⟨by simpa using hcontains, rfl⟩

/-- A snapshot is taken only by its own change, and with an entry only by one that may have
overrides. -/
theorem foldSnapshot_ok {s : Snapshot} {maps : OverrideMaps} (h : c.foldSnapshot s = .ok maps) :
    s.changeId.same c.idNumber = true ∧ s.fold = .ok maps ∧
      (c.profile.loggingOnly = true → maps.isEmpty = true) := by
  unfold foldSnapshot at h
  split at h
  · rename_i hid
    split at h
    · cases h
    · rename_i folded hfold
      split at h
      · cases h
      · rename_i hpermitted
        cases h
        refine ⟨hid, hfold, fun hlogging => ?_⟩
        simpa [hlogging] using hpermitted
  · cases h

/-- **Loading a snapshot:** its maps are merged in, if there is anything in them. -/
theorem loadOverrides_ok {s : Snapshot} (h : c.loadOverrides s = .ok e) :
    ∃ maps, c.foldSnapshot s = .ok maps ∧
      ((maps.isEmpty = true ∧ e = { change := c }) ∨
        (maps.isEmpty = false ∧
          e = {
            change := { c with maps := c.maps.merge maps }
            events := [c.event .loaded] })) := by
  unfold loadOverrides at h
  split at h
  · cases h
  · rename_i maps hfold
    refine ⟨maps, hfold, ?_⟩
    split at h
    · rename_i hempty
      cases h
      exact Or.inl ⟨hempty, rfl⟩
    · rename_i hentries
      cases h
      exact Or.inr ⟨by simpa using hentries, rfl⟩

/-- **No mutation touches the profile.** -/
theorem apply_profile {m : Mutation} (h : c.apply m = .ok e) : e.change.profile = c.profile := by
  cases m with
  | registerListener listener => rw [registerListener_ok h]
  | setRawOverride name override verdict version =>
    obtain ⟨-, inner, hinner, rfl⟩ := setRawOverride_ok h
    change inner.change.profile = c.profile
    rw [reconcile_profile hinner, withRaw_profile]
  | recheck package verdict version => exact reconcile_profile h
  | removeRawOverride name verdict version =>
    rcases removeRawOverride_ok h with ⟨-, rfl⟩ | ⟨-, -, inner, hinner, rfl⟩
    · rfl
    · change inner.change.profile = c.profile
      rw [reconcile_profile hinner, withRaw_profile]
  | clearOverrides => cases h; rfl
  | loadOverrides s =>
    obtain ⟨maps, -, ⟨-, rfl⟩ | ⟨-, rfl⟩⟩ := loadOverrides_ok h <;> rfl

end Change

end ChangeGate
