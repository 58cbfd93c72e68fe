import ChangeGate.Proofs.Change.Loads
import ChangeGate.Proofs.Snapshot.Accepted
/-!
# The events of a mutation

`Change.queued` are the events that a mutation of a change gives rise to, in their order. They can
be read back: what they say, done one after the other to the flags of the overrides as they were,
makes the flags as they are afterwards (`replay_queued`), so the events of a run of mutations take
the flags from its beginning to its end (`replay_queuedAll`).

There is one exception. A load that brings something says that it did and not what it brought
(`Change.Imports`).
-/

namespace ChangeGate

/-! ## What is queued -/

namespace Change

/-- The events that a mutation gives rise to. One that is refused gives rise to none. -/
def queued (c : Change) (m : Mutation) : List Event :=
  match c.apply m with
  | .ok e => e.events
  | .error _ => []

/-- The events that some mutations give rise to, one after the other. -/
def queuedAll (c : Change) : List Mutation → List Event
  | [] => []
  | m :: ms => c.queued m ++ (c.after m).queuedAll ms

variable {c : Change} {e : Effect} {m : Mutation}

theorem queued_of_ok (h : c.apply m = .ok e) : c.queued m = e.events := by
  rw [queued, h]

theorem queued_of_error {error : ChangeError} (h : c.apply m = .error error) :
    c.queued m = [] := by
  rw [queued, h]

theorem queuedAll_append (c : Change) (ms ns : List Mutation) :
    c.queuedAll (ms ++ ns) = c.queuedAll ms ++ (c.run ms).queuedAll ns := by
  induction ms generalizing c with
  | nil => rfl
  | cons m ms ih =>
    rw [List.cons_append, queuedAll, queuedAll, ih, List.append_assoc]
    rfl

/-! ### Every event is of its own change -/

/-- An event that carries the id of the change. -/
def Owns (c : Change) (e : Event) : Prop :=
  e.changeId = c.idNumber

theorem owns_of_reconcile {package : Option String} {verdict : Verdict} {version : Option Number}
    (h : c.reconcile package verdict version = .ok e) : ∀ event ∈ e.events, c.Owns event := by
  rcases reconcile_cases h with ⟨-, rfl⟩ | ⟨name, -, -, -, rfl⟩ | ⟨name, enabled, -, -, -, -, rfl⟩
  · exact fun event hmem => absurd hmem List.not_mem_nil
  · unfold removeEvaluated
    split
    · rintro event hmem
      rw [List.mem_singleton.1 hmem]
      rfl
    · exact fun event hmem => absurd hmem List.not_mem_nil
  · intro event hmem
    rw [List.mem_singleton.1 hmem]
    rfl

theorem owns_of_apply (h : c.apply m = .ok e) : ∀ event ∈ e.events, c.Owns event := by
  intro event hmem
  cases m with
  | registerListener listener =>
    rw [registerListener_ok h] at hmem
    cases hmem
  | setRawOverride name override verdict version =>
    obtain ⟨-, inner, hinner, rfl⟩ := setRawOverride_ok h
    rcases List.mem_cons.1 hmem with rfl | hmem
    · rfl
    · exact owns_of_reconcile hinner event hmem
  | recheck package verdict version => exact owns_of_reconcile h event hmem
  | removeRawOverride name verdict version =>
    rcases removeRawOverride_ok h with ⟨-, rfl⟩ | ⟨-, -, inner, hinner, rfl⟩
    · cases hmem
    · rcases List.mem_cons.1 hmem with rfl | hmem
      · rfl
      · exact owns_of_reconcile hinner event hmem
  | clearOverrides =>
    cases h
    rw [List.mem_singleton.1 hmem]
    rfl
  | loadOverrides s =>
    obtain ⟨maps, -, ⟨-, rfl⟩ | ⟨-, rfl⟩⟩ := loadOverrides_ok h
    · cases hmem
    · rw [List.mem_singleton.1 hmem]
      rfl

theorem owns_of_queued {event : Event} (h : event ∈ c.queued m) : c.Owns event := by
  unfold queued at h
  split at h
  · rename_i e happly
    exact owns_of_apply happly event h
  · cases h

theorem owns_of_queuedAll {ms : List Mutation} {event : Event} (h : event ∈ c.queuedAll ms) :
    c.Owns event := by
  induction ms generalizing c with
  | nil => cases h
  | cons m ms ih =>
    rcases List.mem_append.1 h with h | h
    · exact owns_of_queued h
    · have hrest : event.changeId = (c.after m).idNumber := ih h
      rwa [idNumber, after_profile] at hrest

end Change

/-! ## Replaying events -/

/-- **What overrides come to:** the flag that each raw one asks for, and the evaluated ones. -/
structure Flags where
  raw : NameMap Bool := .empty
  evaluated : NameMap Bool := .empty
deriving DecidableEq

/-- The flags of some overrides, without their ranges. -/
def OverrideMaps.flags (m : OverrideMaps) : Flags where
  raw := m.raw.map (·.enabled)
  evaluated := m.evaluated

/-- **What an event says, done to the flags.** A load says nothing of them. -/
def Flags.replay (f : Flags) (e : Event) : Flags :=
  match e.kind, e.packageName, e.enabled with
  | .rawSet, some name, some enabled => { f with raw := f.raw.insert name enabled }
  | .rawRemoved, some name, _ => { f with raw := f.raw.erase name }
  | .evaluatedSet, some name, some enabled =>
    { f with evaluated := f.evaluated.insert name enabled }
  | .evaluatedRemoved, some name, _ => { f with evaluated := f.evaluated.erase name }
  | .cleared, _, _ => {}
  | _, _, _ => f

namespace Change

variable {c : Change} {e : Effect} {m : Mutation}

/-- The flags of the overrides of a change. -/
def flags (c : Change) : Flags :=
  c.maps.flags

/-- **A load that brings something:** it has entries, and the change takes it. -/
def Imports (c : Change) : Mutation → Prop
  | .loadOverrides s => s.hasEntries = true ∧ c.checkSnapshot s = .ok ()
  | _ => False

instance (c : Change) : DecidablePred c.Imports
  | .loadOverrides s =>
    match h : c.checkSnapshot s with
    | .ok () => decidable_of_iff (s.hasEntries = true) (by simp [Imports, h])
    | .error _ => .isFalse (by simp [Imports, h])
  | .registerListener _ => .isFalse id
  | .setRawOverride _ _ _ _ => .isFalse id
  | .recheck _ _ _ => .isFalse id
  | .removeRawOverride _ _ _ => .isFalse id
  | .clearOverrides => .isFalse id

/-- Whether a load brings something depends on the profile only. -/
theorem imports_of_profile {d : Change} (hprofile : d.profile = c.profile) (h : d.Imports m) :
    c.Imports m := by
  cases m with
  | loadOverrides s =>
    obtain ⟨hentries, hcheck⟩ := h
    obtain ⟨maps, hmaps⟩ := checkSnapshot_eq_ok_iff.1 hcheck
    exact ⟨hentries, checkSnapshot_eq_ok_iff.2 ⟨maps, foldSnapshot_of_profile hprofile.symm hmaps⟩⟩
  | _ => exact h

/-- **Reconciling says what it does.** -/
theorem replay_reconcile {package : Option String} {verdict : Verdict} {version : Option Number}
    (h : c.reconcile package verdict version = .ok e) :
    e.events.foldl Flags.replay c.flags = e.change.flags := by
  rcases reconcile_cases h with ⟨-, rfl⟩ | ⟨name, -, -, -, rfl⟩ | ⟨name, enabled, -, -, -, -, rfl⟩
  · rfl
  · change (c.removeEvaluated name).events.foldl Flags.replay c.flags =
      (c.removeEvaluated name).change.flags
    unfold removeEvaluated
    split <;> rfl
  · rfl

/-- **A mutation says what it does,** unless it is a load that brings something. -/
theorem replay_queued (hm : ¬ c.Imports m) :
    (c.queued m).foldl Flags.replay c.flags = (c.after m).flags := by
  cases happly : c.apply m with
  | error error =>
    rw [queued_of_error happly, after_of_error happly]
    rfl
  | ok e =>
    rw [queued_of_ok happly, after_of_ok happly]
    cases m with
    | registerListener listener =>
      rw [registerListener_ok happly]
      rfl
    | setRawOverride name override verdict version =>
      obtain ⟨-, inner, hinner, rfl⟩ := setRawOverride_ok happly
      rw [List.foldl_cons, ← replay_reconcile hinner]
      -- the first event is that of the recorded override, and reconciling goes on from there
      congr 1
      exact congrArg (fun raw => Flags.mk raw c.maps.evaluated) (NameMap.map_insert _ _ _ _).symm
    | recheck package verdict version => exact replay_reconcile happly
    | removeRawOverride name verdict version =>
      rcases removeRawOverride_ok happly with ⟨-, rfl⟩ | ⟨-, -, inner, hinner, rfl⟩
      · rfl
      · rw [List.foldl_cons, ← replay_reconcile hinner]
        congr 1
        exact congrArg (fun raw => Flags.mk raw c.maps.evaluated) (NameMap.map_erase _ _ _).symm
    | clearOverrides =>
      cases happly
      rfl
    | loadOverrides s =>
      obtain ⟨maps, hmaps, ⟨-, rfl⟩ | ⟨hentries, -⟩⟩ := loadOverrides_ok happly
      · rfl
      · refine absurd ⟨?_, checkSnapshot_eq_ok_iff.2 ⟨maps, hmaps⟩⟩ hm
        rw [Snapshot.isEmpty_of_fold (foldSnapshot_ok hmaps).2.1] at hentries
        simpa using hentries

/-- **The events of a run take the flags from its beginning to its end.** -/
theorem replay_queuedAll {ms : List Mutation} (hms : ∀ m ∈ ms, ¬ c.Imports m) :
    (c.queuedAll ms).foldl Flags.replay c.flags = (c.run ms).flags := by
  induction ms generalizing c with
  | nil => rfl
  | cons m ms ih =>
    rw [queuedAll, List.foldl_append, replay_queued (hms m List.mem_cons_self)]
    exact ih fun n hn himports =>
      hms n (List.mem_cons_of_mem _ hn) (imports_of_profile (after_profile c m) himports)

end Change

end ChangeGate
