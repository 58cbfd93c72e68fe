import ChangeGate.Proofs.Change.Current
/-!
# What a listener is told of

Whoever caches the answers of a change goes by its listener. A call that sets, rechecks or removes
an override tells of its package exactly if it sets the package's evaluated override or removes one
that there was (`notice?_eq_some_iff`), and no answer for an installed application changes without
that (`notice_of_isEnabled_ne`). No other mutation tells anything, and neither does one that is
refused.
-/

namespace ChangeGate

/-- A call that sets, rechecks or removes an override, and its package. -/
def Mutation.About (package? : Option String) : Mutation → Prop
  | .setRawOverride name _ _ _ => package? = some name
  | .recheck package _ _ => package? = package
  | .removeRawOverride name _ _ => package? = some name
  | _ => False

namespace Change

variable {c d : Change} {e : Effect} {m : Mutation} {name : String} {package? : Option String}

/-- **The package that a mutation tells of,** if it does. -/
def notice? (c : Change) (m : Mutation) : Option String :=
  match c.apply m with
  | .ok e => e.notify
  | .error _ => none

/-- **What a mutation that reconciles a package finds for it:** a value, or that there is nothing to
hold. -/
def finds? (c : Change) (m : Mutation) (name : String) : Option (Option Bool) :=
  (c.reconciling? name m).map fun l => (c.after m).reconciled? name l.1 l.2

/-- A mutation sets the evaluated override of a package. -/
def Sets (c : Change) (m : Mutation) (name : String) : Prop :=
  name ≠ "" ∧ ∃ enabled, c.finds? m name = some (some enabled)

/-- A mutation removes the evaluated override of a package that has one. -/
def Removes (c : Change) (m : Mutation) (name : String) : Prop :=
  name ≠ "" ∧ c.maps.evaluated.contains name = true ∧ c.finds? m name = some none

theorem notice?_of_ok (h : c.apply m = .ok e) : c.notice? m = e.notify := by
  rw [notice?, h]

theorem notice?_of_error {error : ChangeError} (h : c.apply m = .error error) :
    c.notice? m = none := by
  rw [notice?, h]

/-! ## What reconciling tells -/

/-- **Reconciling tells of its own package** if that is given a value or loses one. -/
theorem notify_of_reconcile {verdict : Verdict} {version : Option Number}
    (h : c.reconcile package? verdict version = .ok e) :
    e.notify = some name ↔ package? = some name ∧ name ≠ "" ∧
      ((c.reconciled? name verdict version).isSome = true ∨
        c.maps.evaluated.contains name = true) := by
  rcases reconcile_cases h with
    ⟨hempty, rfl⟩ | ⟨own, rfl, hne, hnone, rfl⟩ | ⟨own, enabled, rfl, hne, -, hsome, rfl⟩
  · refine ⟨nofun, ?_⟩
    rintro ⟨hpackage, hname, -⟩
    exact absurd (hempty name hpackage) hname
  · have hnotify : (c.removeEvaluated own).notify =
        if c.maps.evaluated.contains own then some own else none := by
      unfold removeEvaluated
      split <;> rfl
    dsimp only
    rw [hnotify]
    constructor
    · intro heq
      split at heq
      · rename_i hcontains
        cases heq
        exact ⟨rfl, hne, Or.inr hcontains⟩
      · cases heq
    · rintro ⟨heq, -, hvalue⟩
      cases heq
      rw [hnone] at hvalue
      rw [if_pos (hvalue.resolve_left (by simp))]
  · constructor
    · intro heq
      cases heq
      exact ⟨rfl, hne, Or.inl (by rw [hsome]; rfl)⟩
    · rintro ⟨heq, -⟩
      exact heq

/-- **A call about a package reconciles it** once it has put the raw overrides right, or finds
nothing to do. -/
theorem reconciles_of_about (hm : m.About package?) (h : c.apply m = .ok e) :
    (e.change = c ∧ e.notify = none ∧ ∀ name, c.reconciling? name m = none) ∨
    ∃ raw verdict version inner, (c.withRaw raw).reconcile package? verdict version = .ok inner ∧
      e.change = inner.change ∧ e.notify = inner.notify ∧
      ∀ name, c.reconciling? name m =
        if package? = some name then some (verdict, version) else none := by
  cases m with
  | setRawOverride own override verdict version =>
    cases hm
    obtain ⟨-, inner, hinner, rfl⟩ := setRawOverride_ok h
    refine Or.inr ⟨_, verdict, version, inner, hinner, rfl, rfl, fun name => ?_⟩
    simp [reconciling?, h]
  | recheck package verdict version =>
    cases hm
    refine Or.inr ⟨c.maps.raw, verdict, version, e, h, rfl, rfl, fun name => ?_⟩
    simp [reconciling?, h]
  | removeRawOverride own verdict version =>
    cases hm
    rcases removeRawOverride_ok h with ⟨-, rfl⟩ | ⟨-, -, inner, hinner, rfl⟩
    · exact Or.inl ⟨rfl, rfl, fun name => by simp [reconciling?, h]⟩
    · refine Or.inr ⟨_, verdict, version, inner, hinner, rfl, rfl, fun name => ?_⟩
      simp [reconciling?, h]
  | registerListener | clearOverrides | loadOverrides => exact absurd hm id

/-- **A change that has a listener keeps it.** -/
theorem listener_of_apply {l : Nat} (hc : c.listener = some l) (h : c.apply m = .ok e) :
    e.change.listener = some l := by
  by_cases hm : ∃ package?, m.About package?
  · obtain ⟨package?, hm⟩ := hm
    rcases reconciles_of_about hm h with ⟨hchange, -⟩ | ⟨_, _, _, inner, hinner, hchange, -⟩
    · rw [hchange, hc]
    · rw [hchange, reconcile_change hinner]
      exact hc
  · cases m with
    | registerListener listener =>
      have hrefused : c.registerListener listener = .error (.listenerRegistered c) := by
        rw [registerListener, hc]
        rfl
      rw [apply, hrefused] at h
      cases h
    | clearOverrides => cases h; exact hc
    | loadOverrides snapshot =>
      obtain ⟨maps, -, ⟨-, rfl⟩ | ⟨-, rfl⟩⟩ := loadOverrides_ok h <;> exact hc
    | setRawOverride | recheck | removeRawOverride => exact absurd ⟨_, rfl⟩ hm

/-- A change has no listener but the one that it had, or that has just been registered. -/
theorem listener_of_after {l : Nat} (h : (c.after m).listener = some l) :
    c.listener = some l ∨ m = .registerListener l := by
  cases happly : c.apply m with
  | error error =>
    rw [after_of_error happly] at h
    exact Or.inl h
  | ok e =>
    rw [after_of_ok happly] at h
    by_cases hm : ∃ package?, m.About package?
    · obtain ⟨package?, hm⟩ := hm
      rcases reconciles_of_about hm happly with
        ⟨hchange, -⟩ | ⟨_, _, _, inner, hinner, hchange, -⟩
      · rw [hchange] at h
        exact Or.inl h
      · rw [hchange, reconcile_change hinner] at h
        exact Or.inl h
    · cases m with
      | registerListener listener =>
        rw [registerListener_ok happly] at h
        cases h
        exact Or.inr rfl
      | clearOverrides => cases happly; exact Or.inl h
      | loadOverrides snapshot =>
        obtain ⟨maps, -, ⟨-, rfl⟩ | ⟨-, rfl⟩⟩ := loadOverrides_ok happly <;> exact Or.inl h
      | setRawOverride | recheck | removeRawOverride => exact absurd ⟨_, rfl⟩ hm

/-! ## When a mutation tells -/

/-- **No mutation but a call about a package tells anything.** -/
theorem notice?_of_not_about (hm : ∀ package?, ¬ m.About package?) : c.notice? m = none := by
  cases happly : c.apply m with
  | error error => exact notice?_of_error happly
  | ok e =>
    rw [notice?_of_ok happly]
    cases m with
    | registerListener listener => rw [registerListener_ok happly]
    | clearOverrides => cases happly; rfl
    | loadOverrides snapshot =>
      obtain ⟨maps, -, ⟨-, rfl⟩ | ⟨-, rfl⟩⟩ := loadOverrides_ok happly <;> rfl
    | setRawOverride | recheck | removeRawOverride => exact absurd rfl (hm _)

/-- **A call tells of a package exactly if** it sets the package's evaluated override or removes
one that there was. -/
theorem notice?_eq_some_iff (hm : m.About package?) :
    c.notice? m = some name ↔ c.Sets m name ∨ c.Removes m name := by
  cases happly : c.apply m with
  | error error =>
    have hnone : c.finds? m name = none := by
      unfold finds? reconciling?
      rw [happly]
      rfl
    rw [notice?_of_error happly, Sets, Removes, hnone]
    simp
  | ok e =>
    rw [notice?_of_ok happly, Sets, Removes, finds?, after_of_ok happly]
    rcases reconciles_of_about hm happly with
      ⟨-, hnotify, hnone⟩ | ⟨raw, verdict, version, inner, hinner, hchange, hnotify, hreconciling⟩
    · rw [hnotify, hnone]
      simp
    · have hvalue : (c.withRaw raw).reconciled? name verdict version =
          inner.change.reconciled? name verdict version :=
        reconciled?_congr (by rw [reconcile_raw hinner]) verdict version
      rw [hnotify, hchange, notify_of_reconcile hinner, hreconciling, hvalue, withRaw_evaluated]
      by_cases hpackage : package? = some name
      · rw [if_pos hpackage, Option.map_some]
        cases inner.change.reconciled? name verdict version <;> simp [hpackage]
      · simp [hpackage]

/-- **What is found for a package is its evaluated override from then on.** -/
theorem get?_of_finds? (hm : m.About package?) (hname : name ≠ "") {value : Option Bool}
    (h : c.finds? m name = some value) : (c.after m).maps.evaluated.get? name = value := by
  obtain ⟨⟨verdict, version⟩, hreconciling, rfl⟩ := Option.map_eq_some_iff.1 h
  cases happly : c.apply m with
  | error error =>
    unfold reconciling? at hreconciling
    rw [happly] at hreconciling
    cases hreconciling
  | ok e =>
    rw [after_of_ok happly]
    rcases reconciles_of_about hm happly with
      ⟨-, -, hnone⟩ | ⟨raw, verdict', version', inner, hinner, hchange, -, hown⟩
    · rw [hnone] at hreconciling
      cases hreconciling
    · rw [hown] at hreconciling
      split at hreconciling
      · rename_i hpackage
        cases hreconciling
        rw [hchange, reconcile_get? hinner, if_pos ⟨hpackage, hname⟩]
        exact reconciled?_congr (by rw [reconcile_raw hinner]) verdict version
      · cases hreconciling

/-- What it tells of is its own package. -/
theorem about_of_notice? (hm : m.About package?) (h : c.notice? m = some name) :
    package? = some name := by
  cases happly : c.apply m with
  | error error =>
    rw [notice?_of_error happly] at h
    cases h
  | ok e =>
    rw [notice?_of_ok happly] at h
    rcases reconciles_of_about hm happly with ⟨-, hnotify, -⟩ | ⟨_, _, _, _, hinner, -, hnotify, -⟩
    · rw [hnotify] at h
      cases h
    · rw [hnotify] at h
      exact ((notify_of_reconcile hinner).1 h).1

/-! ## What changes without notice -/

/-- **No evaluated override changes without notice.** -/
theorem notice?_of_get?_ne (hm : m.About package?)
    (h : (c.after m).maps.evaluated.get? name ≠ c.maps.evaluated.get? name) :
    c.notice? m = some name := by
  cases happly : c.apply m with
  | error error => exact absurd (by rw [after_of_error happly]) h
  | ok e =>
    rw [after_of_ok happly] at h
    rw [notice?_of_ok happly]
    rcases reconciles_of_about hm happly with
      ⟨hchange, -, -⟩ | ⟨raw, verdict, version, inner, hinner, hchange, hnotify, -⟩
    · exact absurd (by rw [hchange]) h
    · rw [hchange, reconcile_get? hinner, withRaw_evaluated] at h
      rw [hnotify, notify_of_reconcile hinner, withRaw_evaluated]
      split at h
      · rename_i hown
        refine ⟨hown.1, hown.2, ?_⟩
        cases hvalue : (c.withRaw raw).reconciled? name verdict version with
        | some enabled => exact Or.inl rfl
        | none =>
          rw [hvalue] at h
          exact Or.inr (Option.isSome_iff_ne_none.2 h.symm)
      · exact absurd rfl h

/-- An answer depends on the profile and the evaluated override of the application's package. -/
theorem get?_ne_of_isEnabled_ne (hprofile : d.profile = c.profile) {app : Option Application}
    {platformSdk : Number} (h : d.isEnabled app platformSdk ≠ c.isEnabled app platformSdk) :
    ∃ a name, app = some a ∧ a.packageName = some name ∧
      d.maps.evaluated.get? name ≠ c.maps.evaluated.get? name := by
  cases app with
  | none => exact absurd (by simp only [isEnabled, hprofile]) h
  | some a =>
    cases hname : a.packageName with
    | none => exact absurd (by simp only [isEnabled, hprofile, hname, Option.bind_none]) h
    | some name =>
      refine ⟨a, name, rfl, hname, fun heq => h ?_⟩
      simp only [isEnabled, hprofile, hname, Option.bind_some, heq]

/-- **No answer for an installed application changes without notice** of its package. -/
theorem notice_of_isEnabled_ne (hm : m.About package?) {app : Option Application}
    {platformSdk : Number}
    (h : (c.after m).isEnabled app platformSdk ≠ c.isEnabled app platformSdk) :
    ∃ a name, app = some a ∧ a.packageName = some name ∧ package? = some name ∧
      c.notice? m = some name := by
  obtain ⟨a, name, happ, hname, hne⟩ := get?_ne_of_isEnabled_ne (after_profile c m) h
  have hnotice := notice?_of_get?_ne hm hne
  exact ⟨a, name, happ, hname, about_of_notice? hm hnotice, hnotice⟩

end Change

end ChangeGate
