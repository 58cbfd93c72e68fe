import ChangeGate.Proofs.Change.Mutation
import ChangeGate.Proofs.Snapshot.Fold
/-!
# Mutations one after the other

`Change.run` applies mutations in turn, and a refused one is passed over. What holds of every
change that is reached so is `Consistent`: every package with an evaluated override has a raw one,
and a logging-only change has no overrides. Neither the order nor the number of the mutations
matters, and nothing is asked of the snapshots that are loaded.

`Named` has to be asked for: the empty name gets a raw override if one is set for it.
-/

namespace ChangeGate

/-- **A mutation that names packages only.** It sets nothing for the empty name, and it loads
nothing for it. -/
def Mutation.Named : Mutation → Prop
  | .setRawOverride name _ _ _ => name ≠ ""
  | .loadOverrides s => s.Named
  | _ => True

instance : DecidablePred Mutation.Named
  | .setRawOverride name _ _ _ => inferInstanceAs (Decidable (name ≠ ""))
  | .loadOverrides s => inferInstanceAs (Decidable s.Named)
  | .registerListener _ => .isTrue trivial
  | .recheck _ _ _ => .isTrue trivial
  | .removeRawOverride _ _ _ => .isTrue trivial
  | .clearOverrides => .isTrue trivial

namespace Change

/-- **The change after a mutation.** One that is refused leaves it as it was. -/
def after (c : Change) (m : Mutation) : Change :=
  match c.apply m with
  | .ok e => e.change
  | .error _ => c

/-- The change after some mutations. -/
def run (c : Change) (ms : List Mutation) : Change :=
  ms.foldl after c

/-- **A change that mutations of some kind lead to** from its definition. -/
inductive Reachable (allowed : Mutation → Prop) : Change → Prop
  | defined {d : Definition} {c : Change} : ofDefinition d = .ok c → Reachable allowed c
  | mutated {c : Change} {m : Mutation} :
      Reachable allowed c → allowed m → Reachable allowed (c.after m)

variable {c : Change} {e : Effect} {m : Mutation}

theorem after_of_ok (h : c.apply m = .ok e) : c.after m = e.change := by
  rw [after, h]

theorem after_of_error {error : ChangeError} (h : c.apply m = .error error) : c.after m = c := by
  rw [after, h]

/-- What holds of a change and of whatever a mutation makes of it holds afterwards. -/
theorem after_induction {P : Change → Prop} (hc : P c)
    (h : ∀ e, c.apply m = .ok e → P e.change) : P (c.after m) := by
  cases heffect : c.apply m with
  | error error => rwa [after_of_error heffect]
  | ok e =>
    rw [after_of_ok heffect]
    exact h e heffect

@[simp] theorem run_nil (c : Change) : c.run [] = c := rfl

@[simp] theorem run_cons (c : Change) (m : Mutation) (ms : List Mutation) :
    c.run (m :: ms) = (c.after m).run ms := rfl

theorem run_append (c : Change) (ms ns : List Mutation) :
    c.run (ms ++ ns) = (c.run ms).run ns :=
  List.foldl_append

/-- **An invariant of one mutation is one of every run.** -/
theorem run_induction {P : Change → Prop} {ms : List Mutation}
    (h : ∀ c, P c → ∀ m ∈ ms, P (c.after m)) (hc : P c) : P (c.run ms) := by
  induction ms generalizing c with
  | nil => exact hc
  | cons m ms ih =>
    rw [run_cons]
    exact ih (fun c hc m hm => h c hc m (List.mem_cons_of_mem _ hm))
      (h c hc m List.mem_cons_self)

theorem after_profile (c : Change) (m : Mutation) : (c.after m).profile = c.profile :=
  after_induction (P := fun d => d.profile = c.profile) rfl fun _ h => apply_profile h

/-- **The profile outlasts every run.** -/
theorem run_profile (c : Change) (ms : List Mutation) : (c.run ms).profile = c.profile :=
  run_induction (P := fun d => d.profile = c.profile)
    (fun d hd m _ => (after_profile d m).trans hd) rfl

/-! ## Answers -/

/-- **How a mutation is answered.** -/
def reply (c : Change) (m : Mutation) : Except ChangeError (Option Bool) :=
  (c.apply m).map Effect.answer

/-- How some mutations are answered, one after the other. -/
def replies (c : Change) : List Mutation → List (Except ChangeError (Option Bool))
  | [] => []
  | m :: ms => c.reply m :: (c.after m).replies ms

theorem reply_of_ok (h : c.apply m = .ok e) : c.reply m = .ok e.answer := by
  rw [reply, h]
  rfl

theorem reply_of_error {error : ChangeError} (h : c.apply m = .error error) :
    c.reply m = .error error := by
  rw [reply, h]
  rfl

theorem replies_append (c : Change) (ms ns : List Mutation) :
    c.replies (ms ++ ns) = c.replies ms ++ (c.run ms).replies ns := by
  induction ms generalizing c with
  | nil => rfl
  | cons m ms ih => rw [List.cons_append, replies, replies, ih, List.cons_append, run_cons]

@[simp] theorem length_replies (c : Change) (ms : List Mutation) :
    (c.replies ms).length = ms.length := by
  induction ms generalizing c with
  | nil => rfl
  | cons m ms ih => rw [replies, List.length_cons, List.length_cons, ih]

/-! ## Raw overrides cover the evaluated ones -/

/-- **Reconciling covers its own package,** so that the others have to be covered already and
this one need not be. -/
theorem covered_of_reconcile {package : Option String} {verdict : Verdict}
    {version : Option Number} (h : c.reconcile package verdict version = .ok e)
    (hothers : ∀ name, name ≠ "" → package ≠ some name →
      c.maps.evaluated.contains name = true → c.maps.raw.contains name = true) :
    e.change.maps.Covered := by
  intro name hname hevaluated
  rw [reconcile_raw h]
  rw [NameMap.contains, reconcile_get? h] at hevaluated
  by_cases hpackage : package = some name
  · rw [if_pos ⟨hpackage, hname⟩] at hevaluated
    obtain ⟨enabled, henabled⟩ := Option.isSome_iff_exists.1 hevaluated
    exact contains_raw_of_reconciled? henabled
  · rw [if_neg fun hand => hpackage hand.1] at hevaluated
    exact hothers name hname hpackage hevaluated

theorem covered_of_apply (hc : c.maps.Covered) (h : c.apply m = .ok e) :
    e.change.maps.Covered := by
  cases m with
  | registerListener listener =>
    rw [registerListener_ok h]
    exact hc
  | setRawOverride name override verdict version =>
    obtain ⟨-, inner, hinner, rfl⟩ := setRawOverride_ok h
    change inner.change.maps.Covered
    refine covered_of_reconcile hinner fun other hother _ hevaluated => ?_
    rw [withRaw_raw, NameMap.contains_insert, hc other hother hevaluated, Bool.or_true]
  | recheck package verdict version =>
    exact covered_of_reconcile h fun name hname _ => hc name hname
  | removeRawOverride name verdict version =>
    rcases removeRawOverride_ok h with ⟨-, rfl⟩ | ⟨-, -, inner, hinner, rfl⟩
    · exact hc
    · change inner.change.maps.Covered
      -- the package that lost its raw override is the one that is reconciled
      refine covered_of_reconcile hinner fun other hother hne hevaluated => ?_
      have hdifferent : name ≠ other := fun heq => hne (congrArg some heq)
      rw [withRaw_raw, NameMap.contains_erase, hc other hother hevaluated]
      simp [hdifferent]
  | clearOverrides =>
    cases h
    exact OverrideMaps.covered_empty
  | loadOverrides s =>
    obtain ⟨maps, hfold, ⟨-, rfl⟩ | ⟨-, rfl⟩⟩ := loadOverrides_ok h
    · exact hc
    · exact hc.merge (Snapshot.covered_of_fold (foldSnapshot_ok hfold).2.1)

/-! ## The empty name -/

theorem named_of_reconcile {package : Option String} {verdict : Verdict}
    {version : Option Number} (hc : c.maps.Named)
    (h : c.reconcile package verdict version = .ok e) : e.change.maps.Named := by
  refine ⟨?_, ?_⟩
  · rw [reconcile_raw h]
    exact hc.1
  · rw [NameMap.contains, reconcile_get? h, if_neg fun hand => hand.2 rfl]
    exact hc.2

/-- **The empty name gets an override only by its name.** -/
theorem named_of_apply (hm : m.Named) (hc : c.maps.Named) (h : c.apply m = .ok e) :
    e.change.maps.Named := by
  cases m with
  | registerListener listener =>
    rw [registerListener_ok h]
    exact hc
  | setRawOverride name override verdict version =>
    obtain ⟨-, inner, hinner, rfl⟩ := setRawOverride_ok h
    change inner.change.maps.Named
    have hrecorded : (c.withRaw (c.maps.raw.insert name override)).maps.Named := by
      refine ⟨?_, hc.2⟩
      rw [withRaw_raw, NameMap.contains_insert, hc.1, Bool.or_false, decide_eq_false_iff_not]
      exact hm
    exact named_of_reconcile hrecorded hinner
  | recheck package verdict version => exact named_of_reconcile hc h
  | removeRawOverride name verdict version =>
    rcases removeRawOverride_ok h with ⟨-, rfl⟩ | ⟨-, -, inner, hinner, rfl⟩
    · exact hc
    · change inner.change.maps.Named
      have herased : (c.withRaw (c.maps.raw.erase name)).maps.Named := by
        refine ⟨?_, hc.2⟩
        rw [withRaw_raw, NameMap.contains_erase, hc.1, Bool.and_false]
      exact named_of_reconcile herased hinner
  | clearOverrides =>
    cases h
    exact OverrideMaps.named_empty
  | loadOverrides s =>
    obtain ⟨maps, hfold, ⟨-, rfl⟩ | ⟨-, rfl⟩⟩ := loadOverrides_ok h
    · exact hc
    · exact hc.merge (hm.fold (foldSnapshot_ok hfold).2.1)

/-! ## Where there are no overrides -/

/-- No raw override, nothing to decide. -/
theorem decision?_of_empty (hempty : c.maps = .empty) (name : String) (verdict : Verdict)
    (version : Option Number) : c.decision? name verdict version = none := by
  unfold decision?
  rw [hempty]
  rfl

/-- **Reconciling finds nothing,** and does nothing. -/
theorem reconcile_empty (hempty : c.maps = .empty) (package : Option String) (verdict : Verdict)
    (version : Option Number) :
    c.reconcile package verdict version = .ok { change := c, answer := some false } := by
  have hnone : ∀ name, c.removeEvaluated name = { change := c } := by
    intro name
    unfold removeEvaluated
    rw [hempty]
    rfl
  unfold reconcile
  split
  · rfl
  · split
    · rfl
    · rw [decision?_of_empty hempty, hnone]

theorem removeRawOverride_empty (hempty : c.maps = .empty) (name : String) (verdict : Verdict)
    (version : Option Number) :
    c.removeRawOverride name verdict version = .ok { change := c, answer := some false } := by
  unfold removeRawOverride
  rw [hempty]
  rfl

/-- **A logging-only change gets none.** -/
theorem empty_of_apply (hlogging : c.profile.loggingOnly = true) (hc : c.maps = .empty)
    (h : c.apply m = .ok e) : e.change.maps = .empty := by
  cases m with
  | registerListener listener =>
    rw [registerListener_ok h]
    exact hc
  | setRawOverride name override verdict version =>
    rw [(setRawOverride_ok h).1] at hlogging
    cases hlogging
  | recheck package verdict version =>
    have hnothing := reconcile_empty hc package verdict version
    cases hnothing.symm.trans h
    exact hc
  | removeRawOverride name verdict version =>
    have hnothing := removeRawOverride_empty hc name verdict version
    cases hnothing.symm.trans h
    exact hc
  | clearOverrides =>
    cases h
    rfl
  | loadOverrides s =>
    obtain ⟨maps, hfold, ⟨-, rfl⟩ | ⟨hentries, -⟩⟩ := loadOverrides_ok h
    · exact hc
    · rw [(foldSnapshot_ok hfold).2.2 hlogging] at hentries
      cases hentries

/-! ## The invariant -/

/-- **What holds of a change whatever is done to it.** -/
structure Consistent (c : Change) : Prop where
  covered : c.maps.Covered
  silent : c.profile.loggingOnly = true → c.maps = .empty

theorem consistent_of_empty (h : c.maps = .empty) : c.Consistent :=
  ⟨h ▸ OverrideMaps.covered_empty, fun _ => h⟩

theorem Consistent.after (hc : c.Consistent) (m : Mutation) : (c.after m).Consistent :=
  after_induction hc fun _ h => {
    covered := covered_of_apply hc.covered h
    silent := fun hlogging =>
      have hlogging' : c.profile.loggingOnly = true := apply_profile h ▸ hlogging
      empty_of_apply hlogging' (hc.silent hlogging') h }

theorem Consistent.run (hc : c.Consistent) (ms : List Mutation) : (c.run ms).Consistent :=
  run_induction (fun _ hd m _ => hd.after m) hc

theorem named_after (hm : m.Named) (hc : c.maps.Named) : (c.after m).maps.Named :=
  after_induction (P := fun d => d.maps.Named) hc fun _ h => named_of_apply hm hc h

theorem named_run {ms : List Mutation} (hms : ∀ m ∈ ms, m.Named) (hc : c.maps.Named) :
    (c.run ms).maps.Named :=
  run_induction (P := fun d => d.maps.Named) (fun _ hd m hm => named_after (hms m hm) hd) hc

/-- A change starts without overrides. -/
theorem ofDefinition_ok {d : Definition} (h : ofDefinition d = .ok c) :
    ∃ profile, d.profile? = some profile ∧ c = { profile } := by
  unfold ofDefinition at h
  split at h
  · rename_i profile hprofile
    cases h
    exact ⟨profile, hprofile, rfl⟩
  · cases h

theorem Reachable.consistent {allowed : Mutation → Prop} (h : Reachable allowed c) :
    c.Consistent := by
  induction h with
  | defined hd =>
    obtain ⟨profile, -, rfl⟩ := ofDefinition_ok hd
    exact consistent_of_empty rfl
  | mutated _ _ ih => exact ih.after _

theorem Reachable.named (h : Reachable Mutation.Named c) : c.maps.Named := by
  induction h with
  | defined hd =>
    obtain ⟨profile, -, rfl⟩ := ofDefinition_ok hd
    exact OverrideMaps.named_empty
  | mutated _ hm ih => exact named_after hm ih

/-! ## What is saved -/

/-- **With every override named and covered, what is saved is all or nothing:** there is no
snapshot only if there is no override of either kind. -/
theorem snapshot?_eq_none_iff_hasOverrides (hcovered : c.maps.Covered) (hnamed : c.maps.Named) :
    c.snapshot? = none ↔ c.hasOverrides = false := by
  have hevaluated : c.maps.raw.isEmpty = true → c.maps.evaluated.isEmpty = true := by
    intro hraw
    cases hempty : c.maps.evaluated.isEmpty with
    | true => rfl
    | false =>
      obtain ⟨name, hname⟩ := NameMap.exists_contains_of_isEmpty_eq_false hempty
      have hcontains := OverrideMaps.contains_raw hcovered hnamed hname
      rw [NameMap.isEmpty_iff.1 hraw] at hcontains
      cases hcontains
  rw [snapshot?, OverrideMaps.snapshot?_eq_none_iff, hasOverrides, Bool.not_eq_false',
    OverrideMaps.isEmpty, Bool.and_eq_true]
  exact ⟨fun hraw => ⟨hraw, hevaluated hraw⟩, fun h => h.1⟩

end Change

end ChangeGate
