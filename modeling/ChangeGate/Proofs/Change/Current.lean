import ChangeGate.Proofs.Change.Loads
/-!
# Evaluated overrides are current

An evaluated override is kept beside the raw one that it comes from, and so it could be stale. It
is not: as long as nothing is loaded, a package's evaluated override is what its raw override says
of the version that it was reconciled with last, under the verdict that came with it
(`current_run`). Each mutation that writes a raw override reconciles its package, and a clear
drops both.

What is saved is current in the change that it is loaded into, too, so to reconcile a package there
with what it was reconciled with last changes nothing (`after_recheck`).
-/

namespace ChangeGate

/-- A mutation that brings in overrides from elsewhere. -/
def Mutation.Loads : Mutation → Prop
  | .loadOverrides _ => True
  | _ => False

instance : DecidablePred Mutation.Loads
  | .loadOverrides _ => .isTrue trivial
  | .registerListener _ => .isFalse id
  | .setRawOverride _ _ _ _ => .isFalse id
  | .recheck _ _ _ => .isFalse id
  | .removeRawOverride _ _ _ => .isFalse id
  | .clearOverrides => .isFalse id

namespace Change

variable {c d : Change} {e : Effect} {m : Mutation} {name : String}

/-- **What a mutation reconciles a package with,** unless it is refused. A removal does so only if
it finds a raw override, which is what it answers. -/
def reconciling? (c : Change) (name : String) (m : Mutation) : Option (Verdict × Option Number) :=
  match c.apply m, m with
  | .ok _, .setRawOverride other _ verdict version =>
    if other = name then some (verdict, version) else none
  | .ok _, .recheck package verdict version =>
    if package = some name then some (verdict, version) else none
  | .ok e, .removeRawOverride other verdict version =>
    if other = name ∧ e.answer = some true then some (verdict, version) else none
  | _, _ => none

/-- **What a package was reconciled with last** in the course of some mutations. -/
def lastReconciling? (c : Change) (name : String) :
    List Mutation → Option (Verdict × Option Number)
  | [] => none
  | m :: ms => ((c.after m).lastReconciling? name ms).or (c.reconciling? name m)

/-- **A package's evaluated override is current:** reconciling it once more with what it was
reconciled with would give the same. -/
def Current (c : Change) (name : String) (last : Option (Verdict × Option Number)) : Prop :=
  c.maps.evaluated.get? name = last.bind fun l => c.reconciled? name l.1 l.2

/-! ## What reconciling says -/

/-- Only the raw override of the package has a say. -/
theorem reconciled?_congr (hraw : d.maps.raw.get? name = c.maps.raw.get? name) (verdict : Verdict)
    (version : Option Number) :
    d.reconciled? name verdict version = c.reconciled? name verdict version := by
  unfold reconciled? decision?
  rw [hraw]

theorem reconciled?_of_get?_eq_none (hraw : c.maps.raw.get? name = none) (verdict : Verdict)
    (version : Option Number) : c.reconciled? name verdict version = none := by
  unfold reconciled? decision?
  rw [hraw]
  rfl

/-- **A value is given exactly if** the package has a raw override, the verdict allows it to take
effect, the version is a safe integer and in its range; and the value is its flag. -/
theorem reconciled?_eq_some_iff {verdict : Verdict} {version : Option Number} {enabled : Bool} :
    c.reconciled? name verdict version = some enabled ↔
      ∃ override v, c.maps.raw.get? name = some override ∧ version = some v ∧
        verdict.allows = true ∧ v.toSafeInt?.isSome = true ∧
        override.evaluate v = .ofBool enabled := by
  have hvalue : ∀ decision : Decision, decision.toBool? = some enabled ↔
      decision = .ofBool enabled := by
    intro decision
    cases decision <;> cases enabled <;> simp [Decision.toBool?, Decision.ofBool]
  unfold reconciled? decision?
  cases hraw : c.maps.raw.get? name with
  | none => simp
  | some override =>
    cases version with
    | none => simp
    | some v =>
      by_cases hallowed : verdict.allows = true ∧ v.toSafeInt?.isSome = true
      · simp [hallowed, hvalue]
      · dsimp only
        rw [if_neg hallowed]
        refine ⟨nofun, ?_⟩
        rintro ⟨override', v', -, hv, hverdict, hsafe, -⟩
        cases hv
        exact absurd ⟨hverdict, hsafe⟩ hallowed

/-! ## One mutation -/

/-- **Reconciling makes its own package current,** and leaves the others as they were. -/
theorem current_of_reconcile {package : Option String} {verdict : Verdict}
    {version : Option Number} (last : Option (Verdict × Option Number)) (hname : name ≠ "")
    (h : c.reconcile package verdict version = .ok e)
    (hother : package ≠ some name → c.Current name last) :
    e.change.Current name (if package = some name then some (verdict, version) else last) := by
  have hraw : e.change.maps.raw.get? name = c.maps.raw.get? name := by rw [reconcile_raw h]
  rw [Current, reconcile_get? h]
  by_cases hpackage : package = some name
  · rw [if_pos ⟨hpackage, hname⟩, if_pos hpackage]
    exact (reconciled?_congr hraw verdict version).symm
  · rw [if_neg fun hand => hpackage hand.1, if_neg hpackage, hother hpackage]
    congr 1
    funext l
    exact (reconciled?_congr hraw l.1 l.2).symm

/-- Where the raw override of a package stays, and the evaluated one does, it stays current. -/
theorem Current.congr {last : Option (Verdict × Option Number)} (h : c.Current name last)
    (hraw : d.maps.raw.get? name = c.maps.raw.get? name)
    (hevaluated : d.maps.evaluated.get? name = c.maps.evaluated.get? name) :
    d.Current name last := by
  rw [Current, hevaluated, h]
  congr 1
  funext l
  exact (reconciled?_congr hraw l.1 l.2).symm

/-- **Every mutation but a load keeps a package current,** with what the mutation reconciles it
with or else with what was there before. -/
theorem Current.apply {last : Option (Verdict × Option Number)} (hname : name ≠ "")
    (hload : ¬ m.Loads) (hc : c.Current name last)
    (h : c.apply m = .ok e) : e.change.Current name ((c.reconciling? name m).or last) := by
  unfold reconciling?
  rw [h]
  cases m with
  | registerListener listener =>
    rw [registerListener_ok h]
    exact hc
  | setRawOverride other override verdict version =>
    obtain ⟨-, inner, hinner, rfl⟩ := setRawOverride_ok h
    have hset := current_of_reconcile last hname hinner fun hne =>
      have hdifferent : other ≠ name := fun heq => hne (congrArg some heq)
      hc.congr (NameMap.get?_insert_of_ne _ _ hdifferent) rfl
    by_cases heq : other = name <;> simpa [heq] using hset
  | recheck package verdict version =>
    have hreconciled := current_of_reconcile last hname h fun _ => hc
    by_cases heq : package = some name <;> simpa [heq] using hreconciled
  | removeRawOverride other verdict version =>
    rcases removeRawOverride_ok h with ⟨-, rfl⟩ | ⟨-, -, inner, hinner, rfl⟩
    · simpa using hc
    · have hremoved := current_of_reconcile last hname hinner fun hne =>
        have hdifferent : other ≠ name := fun heq => hne (congrArg some heq)
        hc.congr (NameMap.get?_erase_of_ne _ hdifferent) rfl
      by_cases heq : other = name <;> simpa [heq] using hremoved
  | clearOverrides =>
    cases h
    -- nothing is evaluated any more, and nothing raw could be
    change none = _
    cases last with
    | none => rfl
    | some l =>
      have hraw : c.clearOverrides.change.maps.raw.get? name = none := rfl
      exact (reconciled?_of_get?_eq_none hraw l.1 l.2).symm
  | loadOverrides snapshot => exact absurd trivial hload

theorem Current.after {last : Option (Verdict × Option Number)} (hname : name ≠ "")
    (hload : ¬ m.Loads) (hc : c.Current name last) :
    (c.after m).Current name ((c.reconciling? name m).or last) := by
  cases happly : c.apply m with
  | error error =>
    have hnone : c.reconciling? name m = none := by
      unfold reconciling?
      rw [happly]
    rw [after_of_error happly, hnone]
    exact hc
  | ok e =>
    rw [after_of_ok happly]
    exact hc.apply hname hload happly

/-! ## A run -/

/-- **A run without loads keeps every package current.** -/
theorem current_run {last : Option (Verdict × Option Number)} {ms : List Mutation}
    (hname : name ≠ "") (hloads : ∀ m ∈ ms, ¬ m.Loads) (hc : c.Current name last) :
    (c.run ms).Current name ((c.lastReconciling? name ms).or last) := by
  induction ms generalizing c last with
  | nil => exact hc
  | cons m ms ih =>
    have hfirst := hc.after hname (hloads m List.mem_cons_self)
    rw [run_cons, lastReconciling?, Option.or_assoc]
    exact ih (fun m hm => hloads m (List.mem_cons_of_mem _ hm)) hfirst

/-- Without overrides there is nothing to be stale. -/
theorem current_of_empty (h : c.maps = .empty) (name : String) : c.Current name none := by
  rw [Current, h]
  rfl

/-! ## Reconciling once more -/

/-- **To reconcile a package with what it is current with changes nothing.** -/
theorem after_recheck {verdict : Verdict} {version : Option Number}
    (hc : name ≠ "" → c.Current name (some (verdict, version))) :
    c.after (.recheck (some name) verdict version) = c := by
  refine after_induction (P := fun d => d = c) rfl fun e happly => ?_
  have h : c.reconcile (some name) verdict version = .ok e := happly
  have hevaluated : e.change.maps.evaluated = c.maps.evaluated := by
    refine NameMap.ext_get? fun other => ?_
    rw [reconcile_get? h]
    split
    · rename_i hand
      obtain ⟨hpackage, hother⟩ := hand
      cases hpackage
      exact (hc hother).symm
    · rfl
  rw [reconcile_change h, hevaluated]
  rfl

/-- Mutations of which none does anything. -/
theorem run_of_after_eq {ms : List Mutation} (h : ∀ m ∈ ms, c.after m = c) : c.run ms = c :=
  run_induction (P := fun d => d = c) (fun _ hd m hm => hd ▸ h m hm) rfl

/-- **Reconciles packages once more,** each with what it was reconciled with last in the course of
some mutations. -/
def rechecks (c : Change) (ms : List Mutation) (names : List String) : List Mutation :=
  names.filterMap fun name =>
    (c.lastReconciling? name ms).map fun last => .recheck (some name) last.1 last.2

theorem run_rechecks {ms : List Mutation}
    (h : ∀ name, name ≠ "" → d.Current name (c.lastReconciling? name ms)) (names : List String) :
    d.run (c.rechecks ms names) = d := by
  refine run_of_after_eq fun m hm => ?_
  obtain ⟨name, -, hname⟩ := List.mem_filterMap.1 hm
  obtain ⟨last, hlast, rfl⟩ := Option.map_eq_some_iff.1 hname
  exact after_recheck fun hne => hlast ▸ h name hne

/-- **What a saved change brings to a new one of its profile:** the evaluated overrides as they
were, the raw ones as well, and an unconditional one wherever there was a value without an
override. -/
theorem exists_load_own_snapshot {snapshot : Snapshot} (hc : c.Consistent)
    (hsnapshot : c.snapshot? = some snapshot) (hprofile : d.profile = c.profile)
    (hempty : d.maps = .empty) :
    ∃ e, d.apply (.loadOverrides snapshot) = .ok e ∧
      e.change.maps.evaluated = c.maps.evaluated ∧
      ∀ name, e.change.maps.raw.get? name =
        (c.maps.raw.get? name).or ((c.maps.evaluated.get? name).map .unconditional) := by
  obtain ⟨maps, hfold, hevaluated, hraw⟩ := OverrideMaps.fold_snapshot? hsnapshot
  obtain ⟨hentries, hid, -⟩ := OverrideMaps.snapshot?_some hsnapshot
  have htaken : d.foldSnapshot snapshot = .ok maps := by
    refine foldSnapshot_eq_ok_iff.2 ⟨?_, hfold, fun hlogging => ?_⟩
    · rw [hid, idNumber, ← hprofile]
      exact d.same_idNumber
    · rw [hc.silent (hprofile ▸ hlogging)] at hentries
      cases hentries
  refine ⟨_, apply_loadOverrides htaken, ?_, fun name => ?_⟩
  · rw [hempty]
    exact (NameMap.empty_merge _).trans hevaluated
  · rw [hempty]
    change (NameMap.empty.merge maps.raw).get? name = _
    rw [NameMap.empty_merge, hraw]

/-- **A saved change is taken by a new one of its profile,** with the evaluated overrides as they
were, and the raw ones of all packages. -/
theorem exists_load_snapshot? {snapshot : Snapshot} (hc : c.Consistent)
    (hsnapshot : c.snapshot? = some snapshot) (hprofile : d.profile = c.profile)
    (hempty : d.maps = .empty) :
    ∃ e, d.apply (.loadOverrides snapshot) = .ok e ∧
      e.change.maps.evaluated = c.maps.evaluated ∧
      ∀ name, name ≠ "" → e.change.maps.raw.get? name = c.maps.raw.get? name := by
  obtain ⟨e, happly, hevaluated, hraw⟩ := exists_load_own_snapshot hc hsnapshot hprofile hempty
  refine ⟨e, happly, hevaluated, fun name hname => ?_⟩
  rw [hraw]
  -- an evaluated override of a package has its raw one already
  cases hr : c.maps.raw.get? name with
  | some override => rfl
  | none =>
    cases he : c.maps.evaluated.get? name with
    | none => rfl
    | some value =>
      obtain ⟨override, hoverride⟩ := NameMap.contains_iff.1
        (hc.covered name hname (NameMap.contains_iff.2 ⟨value, he⟩))
      rw [hr] at hoverride
      cases hoverride

/-! ## Nothing stale -/

/-- **A change that some mutations led to is up to date.** A package has an evaluated override
exactly if it has a raw one and was reconciled last under a verdict that allows it to take effect
and with a version in its range; and that still holds where the change was saved and loaded again,
in whatever order packages are reconciled there with what they were reconciled with last. -/
structure UpToDate (origin : Change) (ms : List Mutation) (c : Change) : Prop where
  evaluated : ∀ name enabled, name ≠ "" →
    (c.maps.evaluated.get? name = some enabled ↔
      ∃ override verdict v, c.maps.raw.get? name = some override ∧
        origin.lastReconciling? name ms = some (verdict, some v) ∧ verdict.allows = true ∧
        v.toSafeInt?.isSome = true ∧ override.evaluate v = .ofBool enabled)
  reloaded : ∀ (snapshot : Snapshot) (d : Change), c.snapshot? = some snapshot →
    d.profile = origin.profile → d.maps = .empty →
    ∃ e, d.apply (.loadOverrides snapshot) = .ok e ∧
      e.change.maps.evaluated = c.maps.evaluated ∧
      ∀ names, (e.change.run (origin.rechecks ms names)).maps.evaluated =
        e.change.maps.evaluated

theorem upToDate_run {ms : List Mutation} (hempty : c.maps = .empty)
    (hloads : ∀ m ∈ ms, ¬ m.Loads) : UpToDate c ms (c.run ms) := by
  have hcurrent : ∀ name, name ≠ "" →
      (c.run ms).Current name (c.lastReconciling? name ms) := fun name hname => by
    have hrun := current_run hname hloads (current_of_empty hempty name)
    rwa [Option.or_none] at hrun
  refine ⟨fun name enabled hname => ?_, fun snapshot d hsnapshot hprofile hd => ?_⟩
  · rw [hcurrent name hname, Option.bind_eq_some_iff]
    simp only [reconciled?_eq_some_iff]
    constructor
    · rintro ⟨⟨verdict, -⟩, hlast, override, v, hraw, rfl, hrest⟩
      exact ⟨override, verdict, v, hraw, hlast, hrest⟩
    · rintro ⟨override, verdict, v, hraw, hlast, hrest⟩
      exact ⟨(verdict, some v), hlast, override, v, hraw, rfl, hrest⟩
  · have hconsistent := (consistent_of_empty hempty).run ms
    obtain ⟨e, happly, hevaluated, hraw⟩ := exists_load_snapshot? hconsistent hsnapshot
      (hprofile.trans (run_profile c ms).symm) hd
    refine ⟨e, happly, hevaluated, fun names => ?_⟩
    have hloaded : ∀ name, name ≠ "" →
        e.change.Current name (c.lastReconciling? name ms) := fun name hname =>
      (hcurrent name hname).congr (hraw name hname) (by rw [hevaluated])
    rw [run_rechecks hloaded]

end Change

end ChangeGate
