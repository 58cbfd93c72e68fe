import ChangeGate.Proofs.Change.Answers
import ChangeGate.Proofs.Session.Covered
import ChangeGate.Proofs.Session.Settled
/-!
# What the changes of a session answer

Whatever commands are run, a change answers by the policy of its definition wherever one looks at
it, and what it predicts of a package is what a recheck makes of it.
-/

namespace ChangeGate

namespace Session

/-! ## The policy -/

/-- **A change follows the policy it is defined with in every state that a run shows,** at the end
and in the middle of callbacks. A positive "after" is only another way to ask for the next integer
as "since", whatever else is said of "since": it defines the very same change. -/
theorem change_follows_policy (supply : Supply) (commands : List Command) (s : Session)
    (hidle : s.Idle) {i : Nat} {origin : Change} {d : Definition} {after since : Option SafeInt}
    (horigin : s.change? i = some origin) (hdefined : Change.ofDefinition d = .ok origin)
    (hafter : d.enableAfterTargetSdk = after.map .ofSafeInt)
    (hsince : d.enableSinceTargetSdk = since.map .ofSafeInt) :
    (∀ c, SeenAt i (s.journalOf supply commands) (s.afterAll supply commands) c →
      c.FollowsPolicy d.disabled after since) ∧
    ∀ a ∈ after, 0 < a.val → ∃ next, next.toInt? = some (a.val + 1) ∧
      Change.ofDefinition { d with
        enableAfterTargetSdk := none
        enableSinceTargetSdk := some next } = .ok origin := by
  constructor
  · intro c hseen
    obtain ⟨_, ms, hfirst, rfl, -⟩ :=
      hidle.run_of_seenAt (performAll_replays supply commands s) hseen
    obtain rfl := Option.some.inj (horigin.symm.trans hfirst)
    exact Change.followsPolicy_run hdefined hafter hsince ms
  · intro a ha hpositive
    obtain rfl : after = some a := ha
    refine ⟨(Number.ofSafeInt a).addOne, Number.toInt?_addOne a, ?_⟩
    exact (Change.ofDefinition_of_after hafter hpositive).trans hdefined

def thirty : SafeInt := ⟨30, by decide, by decide⟩

/-- A change for applications that target more than version thirty. -/
def gated : Definition where
  id := .ofSafeInt .one
  enableAfterTargetSdk := some (.ofSafeInt thirty)

def gatedChange : Change where
  profile := ⟨.one, none, some (Number.ofSafeInt thirty).addOne, false, false, none, false⟩

theorem gated_defined : Change.ofDefinition gated = .ok gatedChange := by
  have hgate : gated.gate = gatedChange.profile.gate := Definition.gate_of_after rfl (by decide)
  have hprofile : gated.profile? = some gatedChange.profile := by
    rw [Definition.profile?, hgate]
    exact congrArg (Option.map _) (Number.toSafeInt?_ofSafeInt .one)
  rw [Change.ofDefinition, hprofile]
  rfl

def inquiry : Step where
  command := .query 0 (.isEnabled (some ⟨some "lib", .posInf⟩) .nan)

/-- Its listener asks it while a value is set. -/
def asking : Session where
  slots := [{ change := gatedChange }]
  listeners := [{ name := "cache", reactions := [[inquiry]] }]

/-- Commands that give one package a value. -/
def asked : List Command := [
  .registerListener 0 0,
  .setRawOverride 0 (.named "app") { enabled := true } .allowed (some noGate)]

theorem asking_follows_policy :
    asking.Idle ∧ asking.change? 0 = some gatedChange ∧
    Change.ofDefinition gated = .ok gatedChange ∧
    (∃ c, SeenAt 0 (asking.journalOf default asked) (asking.afterAll default asked) c ∧
      c.maps.evaluated.get? "app" = some true ∧
      c.FollowsPolicy false (some thirty) none) ∧
    ∃ next, next.toInt? = some 31 ∧
      Change.ofDefinition { gated with
        enableAfterTargetSdk := none
        enableSinceTargetSdk := some next } = .ok gatedChange := by
  have hidle : asking.Idle := by
    intro slot hslot
    cases List.mem_singleton.1 hslot
    rfl
  have hend : ((asking.afterAll default asked).change? 0).bind (·.maps.evaluated.get? "app") =
      some true := by decide +kernel
  obtain ⟨c, hc, hevaluated⟩ := Option.bind_eq_some_iff.1 hend
  have hafter : gated.enableAfterTargetSdk = (some thirty).map .ofSafeInt := rfl
  have hsince : gated.enableSinceTargetSdk = (none : Option SafeInt).map .ofSafeInt := rfl
  have ⟨hpolicy, hnext⟩ := change_follows_policy default asked asking hidle (i := 0) rfl
    gated_defined hafter hsince
  exact ⟨hidle, rfl, gated_defined, ⟨c, Or.inl hc, hevaluated, hpolicy c (Or.inl hc)⟩,
    hnext _ rfl (by decide)⟩

/-! ## Predictions -/

/-- **What a change predicts of a package is what a recheck makes of it.** Whatever state mutations
have led it to: if the package has a raw override for every version, then once that is rechecked it
holds for every installed application of the package, whoever fails. If it has a raw override for
some versions, or none, then the default value is predicted, whatever is held for it now. And what
an override says without a version it says of every version. -/
theorem recheck_as_predicted (supply : Supply) (depth : Nat) {s : Session} {i : Nat} {c : Change}
    {name : String} (hslot : s.slots[i]? = some ⟨c, false⟩) (hc : c.Reachable fun _ => True)
    (hname : name ≠ "") :
    (∀ override verdict v, c.maps.raw.get? name = some override →
      override.min = none → override.max = none →
      verdict.allows = true → v.toSafeInt?.isSome = true →
      ∃ e told body,
        Leaves supply depth i c (.recheck (some name) verdict (some v)) s e told body ∧
        ∀ targetSdk platformSdk, e.change.isEnabled (some ⟨some name, targetSdk⟩) platformSdk =
          c.willBeEnabled (some name)) ∧
    ((∀ override, c.maps.raw.get? name = some override →
        override.min ≠ none ∨ override.max ≠ none) →
      ∀ evaluated, (c.withEvaluated evaluated).willBeEnabled (some name) =
        c.profile.defaultValue) ∧
    ∀ override : PackageOverride, override.evaluateForAllVersions ≠ .undefined →
      ∀ v, v.toSafeInt?.isSome = true → override.evaluateForAllVersions = override.evaluate v := by
  refine ⟨fun override verdict v hraw hmin hmax hallows hv => ?_, fun hbounded evaluated => ?_,
    fun override hdefined v hv =>
      (PackageOverride.evaluate_eq_evaluateForAllVersions hdefined hv).symm⟩
  · have hall := PackageOverride.isUnconditional_iff.2 ⟨hmin, hmax⟩
    obtain ⟨e, happly, hrechecked⟩ := Change.exists_recheck hc.consistent hname verdict (some v)
    obtain ⟨told, body, hleaves⟩ := mutate_leaves supply depth hslot happly
    exact ⟨e, told, body, hleaves, Change.isEnabled_of_rechecked hrechecked hraw hall hallows hv⟩
  · refine Change.willBeEnabled_of_conditional (c := c.withEvaluated evaluated)
      fun override hraw => ?_
    refine Bool.eq_false_iff.2 fun hall => ?_
    obtain ⟨hmin, hmax⟩ := PackageOverride.isUnconditional_iff.1 hall
    rcases hbounded override hraw with hbound | hbound
    · exact hbound hmin
    · exact hbound hmax

/-- A change with a raw override for every version, which does not hold yet. -/
def planned : Change :=
  hosted.after (.setRawOverride "app" (.unconditional false) .deferred none)

/-- Its listener fails, and its sink fails on values that are set. -/
def planning : Session where
  slots := [{ change := planned }]
  loggers := [{ sink := some (.script [.evaluatedSet] []) }]
  listeners := [{ name := "strict", reactions := [[{ command := .raise "strict" }]] }]

theorem planning_as_predicted :
    planning.slots[0]? = some ⟨planned, false⟩ ∧ planned.Reachable (fun _ => True) ∧
    planned.isEnabled (some ⟨some "app", .posInf⟩) .posInf = true ∧
    planned.willBeEnabled (some "app") = false ∧
    (∃ e told body,
      Leaves default 1 0 planned (.recheck (some "app") .allowed (some noGate)) planning e told
        body ∧
      ∀ targetSdk platformSdk, e.change.isEnabled (some ⟨some "app", targetSdk⟩) platformSdk =
        planned.willBeEnabled (some "app")) ∧
    (∀ evaluated, (planned.withEvaluated evaluated).willBeEnabled (some "lib") =
      planned.profile.defaultValue) := by
  have hreachable : planned.Reachable fun _ => True := hosted_reachable.mutated trivial
  have hraw : planned.maps.raw.get? "app" = some (.unconditional false) := by decide +kernel
  have hnone : planned.maps.raw.get? "lib" = none := by decide +kernel
  have hsafe : noGate.toSafeInt?.isSome = true := by simp [noGate]
  have happ : "app" ≠ "" := by decide
  have hlib : "lib" ≠ "" := by decide
  have ⟨hpredicted, _, _⟩ :=
    recheck_as_predicted default 1 (s := planning) (i := 0) rfl hreachable happ
  have ⟨_, hdefault, _⟩ :=
    recheck_as_predicted default 1 (s := planning) (i := 0) rfl hreachable hlib
  refine ⟨rfl, hreachable, by decide +kernel, by decide +kernel,
    hpredicted _ .allowed noGate hraw rfl rfl rfl hsafe, hdefault fun override hsome => ?_⟩
  rw [hnone] at hsome
  cases hsome

end Session

end ChangeGate
