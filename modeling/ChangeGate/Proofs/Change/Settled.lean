import ChangeGate.Proofs.Change.Independent
/-!
# What reconciling settles

After a recheck of a package, or after a raw override of it was set, its evaluated override is
settled by its raw override, the verdict and the version, and by nothing else: whatever was held for
it before is gone (`exists_recheck`, `exists_record`).

A removal takes the raw override away and leaves the evaluated one to reconciling. That passes over
the empty name, so a value that a snapshot brought for it outlasts the removal and comes back as a
raw override with the next load (`leftWith_of_removal`).
-/

namespace ChangeGate

namespace Change

variable {c : Change} {e : Effect} {name : String} {verdict : Verdict} {version : Option Number}

/-- **A package's evaluated override is settled by a verdict and a version.** It is `enabled`
exactly if the package has a raw override that says so of the version, the verdict allows it to
take effect and the version is a safe integer. -/
def SettledFor (c : Change) (name : String) (verdict : Verdict) (version : Option Number) : Prop :=
  ∀ enabled, c.maps.evaluated.get? name = some enabled ↔
    ∃ override v, c.maps.raw.get? name = some override ∧ version = some v ∧
      verdict.allows = true ∧ v.toSafeInt?.isSome = true ∧ override.evaluate v = .ofBool enabled

/-- **What a recheck of a package does.** It settles the package and leaves everything else alone.
Its answer is whether there was something to evaluate, be it that the version is out of range; and
to do it again changes nothing and is answered alike. -/
structure Rechecked (c : Change) (name : String) (verdict : Verdict) (version : Option Number)
    (e : Effect) : Prop where
  settled : e.change.SettledFor name verdict version
  raw : e.change.maps.raw = c.maps.raw
  others : ∀ other, other ≠ name →
    e.change.maps.evaluated.get? other = c.maps.evaluated.get? other
  answer : ∃ flag, e.answer = some flag ∧ (flag = true ↔
    c.maps.raw.contains name = true ∧ verdict.allows = true ∧
      ∃ v, version = some v ∧ v.toSafeInt?.isSome = true)
  again : ∃ e', e.change.apply (.recheck (some name) verdict version) = .ok e' ∧
    e'.change = e.change ∧ e'.answer = e.answer

/-- **What setting a raw override does.** It is recorded and its package is settled; all else is
left alone, and there is no answer. -/
structure Recorded (c : Change) (name : String) (override : PackageOverride) (verdict : Verdict)
    (version : Option Number) (e : Effect) : Prop where
  settled : e.change.SettledFor name verdict version
  raw : e.change.maps.raw = c.maps.raw.insert name override
  others : ∀ other, other ≠ name →
    e.change.maps.evaluated.get? other = c.maps.evaluated.get? other
  answer : e.answer = none

/-- **A package without a raw override, and with at most a stale value.** Applications of the
package go by that value, or else by the policy of the change. A change of the same profile that
loads what is saved gets the value, and a raw override with it. -/
structure LeftWith (c : Change) (name : String) (stale : Option Bool) : Prop where
  raw : c.maps.raw.get? name = none
  evaluated : c.maps.evaluated.get? name = stale
  isEnabled : ∀ targetSdk platformSdk, c.isEnabled (some ⟨some name, targetSdk⟩) platformSdk =
    stale.getD (c.profile.policy targetSdk platformSdk)
  willBeEnabled : c.willBeEnabled (some name) = c.profile.defaultValue
  reloaded : ∀ (snapshot : Snapshot) (d : Change), c.snapshot? = some snapshot →
    d.profile = c.profile → d.maps = .empty →
    ∃ e, d.apply (.loadOverrides snapshot) = .ok e ∧
      e.change.maps.raw.get? name = stale.map .unconditional ∧
      e.change.maps.evaluated.get? name = stale

/-! ## Reconciling a package -/

/-- There is something to evaluate where the package has a raw override, the verdict allows it to
take effect and the version is a safe integer. -/
theorem isSome_decision?_iff :
    (c.decision? name verdict version).isSome = true ↔
      c.maps.raw.contains name = true ∧ verdict.allows = true ∧
        ∃ v, version = some v ∧ v.toSafeInt?.isSome = true := by
  unfold decision? NameMap.contains
  cases hraw : c.maps.raw.get? name with
  | none => simp
  | some override =>
    cases version with
    | none => simp
    | some v =>
      by_cases hallowed : verdict.allows = true ∧ v.toSafeInt?.isSome = true <;> simp [hallowed]

/-- **Reconciling settles its own package,** whatever was held for it before. -/
theorem settled_of_reconcile (hname : name ≠ "")
    (h : c.reconcile (some name) verdict version = .ok e) :
    e.change.SettledFor name verdict version := by
  intro enabled
  have hraw : e.change.maps.raw.get? name = c.maps.raw.get? name := by rw [reconcile_raw h]
  rw [reconcile_get? h, if_pos ⟨rfl, hname⟩, ← reconciled?_congr hraw]
  exact reconciled?_eq_some_iff

/-- It leaves all other packages alone. -/
theorem reconcile_get?_of_ne {other : String} (hother : other ≠ name)
    (h : c.reconcile (some name) verdict version = .ok e) :
    e.change.maps.evaluated.get? other = c.maps.evaluated.get? other := by
  rw [reconcile_get? h, if_neg]
  rintro ⟨heq, -⟩
  exact hother (Option.some.inj heq).symm

/-- **To reconcile a package once more changes nothing,** and is answered alike. -/
theorem reconcile_again (hc : c.profile.loggingOnly = true → c.maps.raw = .empty)
    (hname : name ≠ "") (h : c.reconcile (some name) verdict version = .ok e) :
    ∃ e', e.change.apply (.recheck (some name) verdict version) = .ok e' ∧
      e'.change = e.change ∧ e'.answer = e.answer := by
  have hprofile : e.change.profile.loggingOnly = true → e.change.maps.raw = .empty := by
    rw [reconcile_profile h, reconcile_raw h]
    exact hc
  obtain ⟨e', he'⟩ := exists_reconcile (some name) verdict version hprofile
  have hagain : e.change.apply (.recheck (some name) verdict version) = .ok e' := he'
  have hraw : e.change.maps.raw.get? name = c.maps.raw.get? name := by rw [reconcile_raw h]
  have hcurrent : e.change.Current name (some (verdict, version)) := by
    rw [Current, reconcile_get? h, if_pos ⟨rfl, hname⟩]
    exact (reconciled?_congr hraw verdict version).symm
  refine ⟨e', hagain, ?_, ?_⟩
  · rw [← after_of_ok hagain]
    exact after_recheck fun _ => hcurrent
  · have hdecision : e.change.decision? name verdict version =
        c.decision? name verdict version := by
      unfold decision?
      rw [hraw]
    rw [reconcile_answer he', reconcile_answer h, hdecision]

/-- **A recheck succeeds and settles its package.** -/
theorem exists_recheck (hc : c.Consistent) (hname : name ≠ "") (verdict : Verdict)
    (version : Option Number) :
    ∃ e, c.apply (.recheck (some name) verdict version) = .ok e ∧
      c.Rechecked name verdict version e := by
  have hempty : c.profile.loggingOnly = true → c.maps.raw = .empty := fun hlogging => by
    rw [hc.silent hlogging]
    rfl
  obtain ⟨e, he⟩ := exists_reconcile (some name) verdict version hempty
  have hanswer : e.answer = some (c.decision? name verdict version).isSome := by
    rw [reconcile_answer he, decide_eq_true hname, Bool.true_and]
  exact ⟨e, he, {
    settled := settled_of_reconcile hname he
    raw := reconcile_raw he
    others := fun other hother => reconcile_get?_of_ne hother he
    answer := ⟨_, hanswer, isSome_decision?_iff⟩
    again := reconcile_again hempty hname he }⟩

/-- **A raw override is set** unless the change is logging-only, and settles its package. -/
theorem exists_record (hlogging : c.profile.loggingOnly = false) (hname : name ≠ "")
    (override : PackageOverride) (verdict : Verdict) (version : Option Number) :
    ∃ e, c.apply (.setRawOverride name override verdict version) = .ok e ∧
      c.Recorded name override verdict version e := by
  obtain ⟨e, he⟩ := exists_setRawOverride hlogging name override verdict version
  obtain ⟨-, inner, hinner, rfl⟩ := setRawOverride_ok he
  have hsettled : inner.change.SettledFor name verdict version := settled_of_reconcile hname hinner
  have hothers : ∀ other, other ≠ name →
      inner.change.maps.evaluated.get? other = c.maps.evaluated.get? other := by
    intro other hother
    rw [reconcile_get?_of_ne hother hinner, withRaw_evaluated]
  exact ⟨_, he, {
    settled := hsettled
    raw := reconcile_raw hinner
    others := hothers
    answer := rfl }⟩

/-! ## Removing a raw override -/

/-- What a package without a raw override is left with is said by its evaluated one. -/
theorem leftWith_of_get? (hc : c.Consistent) (hraw : c.maps.raw.get? name = none) :
    c.LeftWith name (c.maps.evaluated.get? name) where
  raw := hraw
  evaluated := rfl
  isEnabled _ _ := rfl
  willBeEnabled := by simp [Change.willBeEnabled, hraw]
  reloaded snapshot d hsnapshot hprofile hempty := by
    obtain ⟨e, happly, hevaluated, hloaded⟩ :=
      exists_load_own_snapshot hc hsnapshot hprofile hempty
    refine ⟨e, happly, ?_, by rw [hevaluated]⟩
    rw [hloaded, hraw, Option.none_or]

/-- **A removal that is answered with `true` takes the raw override away.** Of a package it leaves
nothing; for the empty name it leaves the value as it was. -/
theorem leftWith_of_removal (hc : c.Consistent)
    (h : c.apply (.removeRawOverride name verdict version) = .ok e)
    (hanswer : e.answer = some true) :
    e.change.LeftWith name (if name = "" then c.maps.evaluated.get? name else none) := by
  have hafter : e.change.Consistent := after_of_ok h ▸ hc.after _
  rcases removeRawOverride_ok h with ⟨-, rfl⟩ | ⟨-, -, inner, hinner, rfl⟩
  · cases hanswer
  · change inner.change.LeftWith name _
    change inner.change.Consistent at hafter
    have hraw : inner.change.maps.raw.get? name = none := by
      rw [reconcile_raw hinner, withRaw_raw, NameMap.get?_erase, if_pos rfl]
    have hevaluated : inner.change.maps.evaluated.get? name =
        if name = "" then c.maps.evaluated.get? name else none := by
      rw [reconcile_get? hinner]
      by_cases hname : name = ""
      · simp [hname]
      · have herased : (c.withRaw (c.maps.raw.erase name)).maps.raw.get? name = none := by
          rw [withRaw_raw, NameMap.get?_erase, if_pos rfl]
        rw [if_pos ⟨rfl, hname⟩, if_neg hname, reconciled?_of_get?_eq_none herased]
    rw [← hevaluated]
    exact leftWith_of_get? hafter hraw

end Change

end ChangeGate
