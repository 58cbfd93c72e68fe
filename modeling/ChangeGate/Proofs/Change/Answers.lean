import ChangeGate.Proofs.Change.Settled
import ChangeGate.Proofs.Number.Integers
/-!
# What a change answers

A change answers for an installed application by an evaluated override, or else by the policy it is
defined with. `Passes` is that policy in terms of the two ways to state a gate, of integers and of
each SDK level for itself; the change keeps one gate and compares it with the smaller level.
`FollowsPolicy` is all that `Change.isEnabled` answers, and `followsPolicy_run` has it of a change
after any mutations.

For an application that is not installed the raw override is asked, without a version.
`isEnabled_of_rechecked` has the two agree: once the package is reconciled, `Change.isEnabled` is
what `Change.willBeEnabled` was.
-/

namespace ChangeGate

/-! ## Overrides without a version -/

namespace PackageOverride

variable {p : PackageOverride}

theorem isUnconditional_iff : p.isUnconditional = true ↔ p.min = none ∧ p.max = none := by
  simp [isUnconditional]

theorem evaluateForAllVersions_eq_undefined_iff :
    p.evaluateForAllVersions = .undefined ↔ p.isUnconditional = false := by
  unfold evaluateForAllVersions
  cases p.isUnconditional <;> cases p.enabled <;> simp [Decision.ofBool]

/-- **What an override says without a version it says of every version.** -/
theorem evaluate_eq_evaluateForAllVersions (h : p.evaluateForAllVersions ≠ .undefined) {v : Number}
    (hv : v.toSafeInt?.isSome = true) : p.evaluate v = p.evaluateForAllVersions := by
  obtain ⟨n, hn⟩ := Option.isSome_iff_exists.1 hv
  have hall : p.isUnconditional = true := by
    rw [Ne, evaluateForAllVersions_eq_undefined_iff] at h
    simpa using h
  obtain ⟨hmin, hmax⟩ := isUnconditional_iff.1 hall
  have hcovers : p.covers n = true := by simp [covers, hmin, hmax]
  simp [evaluate, evaluateForAllVersions, hn, hall, hcovers]

end PackageOverride

/-! ## The policy of a definition -/

/-- **The SDK levels that a definition asks for.** A positive "after" asks both levels for the next
one. Only without it does a positive "since" count, and asks both levels for itself. -/
structure Passes (after since : Option SafeInt) (targetSdk platformSdk : Number) : Prop where
  ofAfter : ∀ a ∈ after, 0 < a.val →
    targetSdk.AtLeast (a.val + 1) ∧ platformSdk.AtLeast (a.val + 1)
  ofSince : (∀ a ∈ after, a.val ≤ 0) → ∀ b ∈ since, 0 < b.val →
    targetSdk.AtLeast b.val ∧ platformSdk.AtLeast b.val

namespace Definition

variable {d : Definition} {after since : Option SafeInt}

/-- Of safe integers the positive ones are left as gates. -/
theorem filter_isPositive (level : Option SafeInt) :
    (level.map Number.ofSafeInt).filter Number.isPositive =
      (level.filter fun n => 0 < n.val).map .ofSafeInt := by
  cases level with
  | none => rfl
  | some n =>
    have hpositive := Number.isPositive_of_toInt? (Number.toInt?_ofSafeInt n)
    simp only [Option.map_some, Option.filter_some, hpositive]
    split <;> rfl

/-- **A positive "after" is the gate of the next integer,** whatever "since" says. -/
theorem gate_of_after {a : SafeInt} (hafter : d.enableAfterTargetSdk = some (.ofSafeInt a))
    (hpositive : 0 < a.val) : d.gate = some (Number.ofSafeInt a).addOne := by
  have hfilter := filter_isPositive (some a)
  rw [Option.filter_some, if_pos (by simpa using hpositive)] at hfilter
  rw [gate, hafter]
  simp only [Option.map_some] at hfilter
  rw [hfilter]

/-- Without one a positive "since" is the gate. -/
theorem gate_of_not_after (hafter : d.enableAfterTargetSdk = after.map .ofSafeInt)
    (hsince : d.enableSinceTargetSdk = since.map .ofSafeInt)
    (hnot : ∀ a ∈ after, a.val ≤ 0) :
    d.gate = (since.filter fun n => 0 < n.val).map .ofSafeInt := by
  have hnone : after.filter (fun n => 0 < n.val) = none := by
    refine Option.filter_eq_none_iff.2 fun a ha => ?_
    have := hnot a ha
    simpa using this
  rw [gate, hafter, filter_isPositive, hnone, hsince, filter_isPositive]
  rfl

/-- **One gate is as good as the two.** If there is one it is an integer, and it asks of each level
what the definition does; and if there is none the definition asks for nothing. -/
theorem gate_spec (hafter : d.enableAfterTargetSdk = after.map .ofSafeInt)
    (hsince : d.enableSinceTargetSdk = since.map .ofSafeInt) :
    (∃ gate n, d.gate = some gate ∧ gate.toInt? = some n ∧ ∀ targetSdk platformSdk,
      Passes after since targetSdk platformSdk ↔ targetSdk.AtLeast n ∧ platformSdk.AtLeast n) ∨
    (d.gate = none ∧ ∀ targetSdk platformSdk, Passes after since targetSdk platformSdk) := by
  by_cases hpositive : ∃ a ∈ after, 0 < a.val
  · obtain ⟨a, ha, hpositive⟩ := hpositive
    obtain rfl : after = some a := ha
    refine Or.inl ⟨_, _, gate_of_after hafter hpositive, Number.toInt?_addOne a,
      fun targetSdk platformSdk => ⟨fun h => h.ofAfter a rfl hpositive, fun h => ?_⟩⟩
    refine ⟨fun b hb _ => ?_, fun hnot => ?_⟩
    · rwa [← Option.some.inj hb]
    · have := hnot a rfl
      omega
  · have hnot : ∀ a ∈ after, a.val ≤ 0 := fun a ha =>
      Int.not_lt.1 fun hlt => hpositive ⟨a, ha, hlt⟩
    have hgate := gate_of_not_after hafter hsince hnot
    cases hfilter : since.filter fun n => 0 < n.val with
    | none =>
      rw [hfilter] at hgate
      refine Or.inr ⟨hgate, fun targetSdk platformSdk => ⟨fun a ha hlt => ?_, fun _ b hb hlt => ?_⟩⟩
      · exact absurd ⟨a, ha, hlt⟩ hpositive
      · have := Option.filter_eq_none_iff.1 hfilter b hb
        simp [hlt] at this
    | some b =>
      rw [hfilter] at hgate
      obtain ⟨rfl, hlt⟩ := Option.filter_eq_some_iff.1 hfilter
      refine Or.inl ⟨_, _, hgate, Number.toInt?_ofSafeInt b, fun targetSdk platformSdk =>
        ⟨fun h => h.ofSince hnot b rfl (by simpa using hlt), fun h => ?_⟩⟩
      refine ⟨fun a ha hpos => absurd ⟨a, ha, hpos⟩ hpositive, fun _ b' hb' _ => ?_⟩
      rwa [← Option.some.inj hb']

/-- **The next integer as "since" is as good as "after".** Whatever else the definition says of
"since" is lost. -/
theorem profile?_of_after {a : SafeInt} (hafter : d.enableAfterTargetSdk = some (.ofSafeInt a))
    (hpositive : 0 < a.val) :
    { d with
      enableAfterTargetSdk := none
      enableSinceTargetSdk := some (Number.ofSafeInt a).addOne }.profile? = d.profile? := by
  have hnext : (Number.ofSafeInt a).addOne.isPositive = true := by
    rw [Number.isPositive_of_toInt? (Number.toInt?_addOne a), decide_eq_true_iff]
    omega
  have hgate : { d with
      enableAfterTargetSdk := none
      enableSinceTargetSdk := some (Number.ofSafeInt a).addOne }.gate = d.gate := by
    rw [gate_of_after hafter hpositive]
    simp [gate, hnext]
  simp only [profile?, hgate]

end Definition

/-- The policy of a profile is that of its definition. -/
theorem Profile.policy_iff {d : Definition} {p : Profile} {after since : Option SafeInt}
    (h : d.profile? = some p) (hafter : d.enableAfterTargetSdk = after.map .ofSafeInt)
    (hsince : d.enableSinceTargetSdk = since.map .ofSafeInt) (targetSdk platformSdk : Number) :
    p.policy targetSdk platformSdk = true ↔
      d.disabled = false ∧ Passes after since targetSdk platformSdk := by
  obtain ⟨id, -, rfl⟩ := Option.map_eq_some_iff.1 h
  cases hdisabled : d.disabled with
  | true => simp [policy]
  | false =>
    rcases Definition.gate_spec hafter hsince with ⟨gate, n, hgate, hn, hpasses⟩ | ⟨hgate, hpasses⟩
    · simp [policy, hgate, Number.le_iff_atLeast hn, Number.atLeast_min_iff, hpasses]
    · simp [policy, hgate, hpasses]

/-- **Levels that grow keep what they passed.** -/
theorem Passes.mono {after since : Option SafeInt} {targetSdk platformSdk target platform : Number}
    (h : Passes after since targetSdk platformSdk)
    (htarget : ∀ n, targetSdk.AtLeast n → target.AtLeast n)
    (hplatform : ∀ n, platformSdk.AtLeast n → platform.AtLeast n) :
    Passes after since target platform where
  ofAfter a ha hpositive := (h.ofAfter a ha hpositive).imp (htarget _) (hplatform _)
  ofSince hnot b hb hpositive := (h.ofSince hnot b hb hpositive).imp (htarget _) (hplatform _)

namespace Change

/-! ## Installed applications -/

/-- **What a change answers for installed applications,** if it is defined with these two gates.
Where an application is known and no override of its package holds, the answer is `judged`. So it
stays `true` as either level grows, and a level above the platform's counts as the platform's. -/
structure FollowsPolicy (c : Change) (disabled : Bool) (after since : Option SafeInt) : Prop where
  unknown : ∀ platformSdk, c.isEnabled none platformSdk = !disabled
  overridden : ∀ name enabled targetSdk platformSdk,
    c.maps.evaluated.get? name = some enabled →
    c.isEnabled (some ⟨some name, targetSdk⟩) platformSdk = enabled
  judged : ∀ package? targetSdk platformSdk, package?.bind c.maps.evaluated.get? = none →
    (c.isEnabled (some ⟨package?, targetSdk⟩) platformSdk = true ↔
      disabled = false ∧ Passes after since targetSdk platformSdk)
  target : ∀ package? targetSdk greater platformSdk,
    package?.bind c.maps.evaluated.get? = none → targetSdk.le greater = true →
    c.isEnabled (some ⟨package?, targetSdk⟩) platformSdk = true →
    c.isEnabled (some ⟨package?, greater⟩) platformSdk = true
  platform : ∀ package? targetSdk platformSdk greater,
    package?.bind c.maps.evaluated.get? = none → platformSdk.le greater = true →
    c.isEnabled (some ⟨package?, targetSdk⟩) platformSdk = true →
    c.isEnabled (some ⟨package?, targetSdk⟩) greater = true
  capped : ∀ package? targetSdk platformSdk,
    package?.bind c.maps.evaluated.get? = none → platformSdk.lt targetSdk = true →
    c.isEnabled (some ⟨package?, targetSdk⟩) platformSdk =
      c.isEnabled (some ⟨package?, platformSdk⟩) platformSdk

variable {c origin : Change} {d : Definition} {after since : Option SafeInt}

/-- What a change answers follows from its profile's policy. -/
theorem followsPolicy_of_policy {disabled : Bool} (hdefault : c.profile.defaultValue = !disabled)
    (hpolicy : ∀ targetSdk platformSdk, c.profile.policy targetSdk platformSdk = true ↔
      disabled = false ∧ Passes after since targetSdk platformSdk) :
    c.FollowsPolicy disabled after since := by
  have hjudged : ∀ package? targetSdk platformSdk,
      package?.bind c.maps.evaluated.get? = none →
      (c.isEnabled (some ⟨package?, targetSdk⟩) platformSdk = true ↔
        disabled = false ∧ Passes after since targetSdk platformSdk) := by
    intro package? targetSdk platformSdk hnone
    simp only [isEnabled, hnone, Option.getD_none]
    exact hpolicy targetSdk platformSdk
  refine {
    unknown := fun _ => hdefault
    overridden := fun name enabled targetSdk platformSdk hevaluated => ?_
    judged := hjudged
    target := fun package? targetSdk greater platformSdk hnone hle hon => ?_
    platform := fun package? targetSdk platformSdk greater hnone hle hon => ?_
    capped := fun package? targetSdk platformSdk hnone hlt => ?_ }
  · simp [isEnabled, hevaluated]
  · obtain ⟨hdisabled, hpasses⟩ := (hjudged _ _ _ hnone).1 hon
    exact (hjudged _ _ _ hnone).2 ⟨hdisabled, hpasses.mono (fun _ h => h.mono hle) fun _ h => h⟩
  · obtain ⟨hdisabled, hpasses⟩ := (hjudged _ _ _ hnone).1 hon
    exact (hjudged _ _ _ hnone).2 ⟨hdisabled, hpasses.mono (fun _ h => h) fun _ h => h.mono hle⟩
  · rw [Bool.eq_iff_iff, hjudged _ _ _ hnone, hjudged _ _ _ hnone]
    refine and_congr_right fun _ => ⟨fun h => ?_, fun h => ?_⟩
    -- the platform's level is the smaller one, so it passes what the greater one passes with it
    · exact ⟨fun a ha hpos => ⟨(h.ofAfter a ha hpos).2, (h.ofAfter a ha hpos).2⟩,
        fun hnot b hb hpos => ⟨(h.ofSince hnot b hb hpos).2, (h.ofSince hnot b hb hpos).2⟩⟩
    · exact h.mono (fun _ hleast => hleast.mono (Number.le_of_lt hlt)) fun _ h => h

/-- **A change follows the policy it is defined with,** whatever mutations it has seen. -/
theorem followsPolicy_run (hdefined : ofDefinition d = .ok origin)
    (hafter : d.enableAfterTargetSdk = after.map .ofSafeInt)
    (hsince : d.enableSinceTargetSdk = since.map .ofSafeInt) (ms : List Mutation) :
    (origin.run ms).FollowsPolicy d.disabled after since := by
  obtain ⟨profile, hprofile, rfl⟩ := ofDefinition_ok hdefined
  have hlast := run_profile { profile } ms
  refine followsPolicy_of_policy ?_ fun targetSdk platformSdk => ?_
  · rw [hlast]
    obtain ⟨id, -, rfl⟩ := Option.map_eq_some_iff.1 hprofile
    rfl
  · rw [hlast]
    exact Profile.policy_iff hprofile hafter hsince targetSdk platformSdk

/-- **A positive "after" makes the change that "since" the next integer makes.** -/
theorem ofDefinition_of_after {a : SafeInt}
    (hafter : d.enableAfterTargetSdk = some (.ofSafeInt a)) (hpositive : 0 < a.val) :
    ofDefinition { d with
      enableAfterTargetSdk := none
      enableSinceTargetSdk := some (Number.ofSafeInt a).addOne } = ofDefinition d := by
  unfold ofDefinition
  rw [Definition.profile?_of_after hafter hpositive]

/-! ## Applications that are not installed -/

variable {name : String}

/-- **A raw override for every version decides.** -/
theorem willBeEnabled_of_unconditional {override : PackageOverride}
    (hraw : c.maps.raw.get? name = some override) (hall : override.isUnconditional = true) :
    c.willBeEnabled (some name) = override.enabled := by
  simp [willBeEnabled, hraw, PackageOverride.evaluateForAllVersions, hall]

/-- **Any other raw override leaves it to the default value,** and so does none. -/
theorem willBeEnabled_of_conditional
    (h : ∀ override, c.maps.raw.get? name = some override → override.isUnconditional = false) :
    c.willBeEnabled (some name) = c.profile.defaultValue := by
  cases hraw : c.maps.raw.get? name with
  | none => simp [willBeEnabled, hraw]
  | some override =>
    have hundefined := PackageOverride.evaluateForAllVersions_eq_undefined_iff.2 (h override hraw)
    simp [willBeEnabled, hraw, hundefined, Decision.toBool?]

/-- **What was predicted holds once the package is reconciled,** for a raw override for every
version, a verdict that allows it and a safe version. -/
theorem isEnabled_of_rechecked {e : Effect} {override : PackageOverride} {verdict : Verdict}
    {v : Number} (h : c.Rechecked name verdict (some v) e)
    (hraw : c.maps.raw.get? name = some override) (hall : override.isUnconditional = true)
    (hallows : verdict.allows = true) (hv : v.toSafeInt?.isSome = true)
    (targetSdk platformSdk : Number) :
    e.change.isEnabled (some ⟨some name, targetSdk⟩) platformSdk = c.willBeEnabled (some name) := by
  have hdecides : override.evaluateForAllVersions = .ofBool override.enabled := by
    simp [PackageOverride.evaluateForAllVersions, hall]
  have hdefined : override.evaluateForAllVersions ≠ .undefined := by
    rw [Ne, PackageOverride.evaluateForAllVersions_eq_undefined_iff, hall]
    simp
  have hevaluate : override.evaluate v = .ofBool override.enabled := by
    rw [PackageOverride.evaluate_eq_evaluateForAllVersions hdefined hv, hdecides]
  have hevaluated : e.change.maps.evaluated.get? name = some override.enabled :=
    (h.settled override.enabled).2 ⟨override, v, by rw [h.raw, hraw], rfl, hallows, hv, hevaluate⟩
  rw [willBeEnabled_of_unconditional hraw hall]
  simp [isEnabled, hevaluated]

end Change

end ChangeGate
