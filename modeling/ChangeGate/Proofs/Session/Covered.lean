import ChangeGate.Proofs.Session.Serial
/-!
# Raw overrides cover evaluated ones

`Change.Consistent` holds of a change that mutations lead to. Since mutations are serial under
callbacks, every change of a session is one of these: at the end of a run, and also where a
callback looks at it in the middle. So whatever `Change.isEnabled` consults is kept by a save.
-/

namespace ChangeGate

/-- **A change as a run shows it:** to a command of a reaction, or at the end. -/
def Seen (journal : List Happening) (s' : Session) (c : Change) : Prop :=
  c ∈ s'.changes ∨ ∃ changes, .reached changes ∈ journal ∧ c ∈ changes

/-- **A change as a run shows it at a place.** -/
def SeenAt (i : Nat) (journal : List Happening) (s' : Session) (c : Change) : Prop :=
  s'.change? i = some c ∨ ∃ changes, .reached changes ∈ journal ∧ changes[i]? = some c

/-- **A mutation that is let in names packages only.** -/
def Happening.Named : Happening → Prop
  | .opened _ m => m.Named
  | _ => True

instance : DecidablePred Happening.Named
  | .opened _ m => inferInstanceAs (Decidable m.Named)
  | .refused _ _ => .isTrue trivial
  | .closed _ _ => .isTrue trivial
  | .notified _ _ _ _ => .isTrue trivial
  | .delivered _ _ _ => .isTrue trivial
  | .reached _ => .isTrue trivial
  | .written _ _ => .isTrue trivial

theorem mem_openedOf {i : Nat} {m : Mutation} {journal : List Happening} :
    m ∈ openedOf i journal ↔ .opened i m ∈ journal := by
  rw [openedOf, List.mem_filterMap]
  refine ⟨?_, fun h => ⟨.opened i m, h, if_pos rfl⟩⟩
  rintro ⟨h, hmem, heq⟩
  split at heq
  · split at heq
    · rename_i hj
      cases heq
      exact hj ▸ hmem
    · cases heq
  · cases heq

/-- **All that is evaluated is saved.** There is nothing to save exactly if there is no override,
and every evaluated override is in the snapshot. -/
structure Change.SavesAll (c : Change) : Prop where
  silent : c.snapshot? = none ↔ c.hasOverrides = false
  evaluated : ∀ name enabled, c.maps.evaluated.get? name = some enabled →
    ∃ snapshot, c.snapshot? = some snapshot ∧ ⟨name, enabled⟩ ∈ snapshot.validatedEntries

theorem Change.savesAll {c : Change} (hcovered : c.maps.Covered) (hnamed : c.maps.Named) :
    c.SavesAll where
  silent := snapshot?_eq_none_iff_hasOverrides hcovered hnamed
  evaluated name enabled hevaluated := by
    have hcontains : c.maps.evaluated.contains name = true :=
      NameMap.contains_iff.2 ⟨enabled, hevaluated⟩
    have hraw := NameMap.isEmpty_eq_false_of_contains
      (OverrideMaps.contains_raw hcovered hnamed hcontains)
    rw [snapshot?, OverrideMaps.snapshot?, if_neg (by simp [hraw])]
    refine ⟨_, rfl, List.mem_map.2 ⟨(name, enabled), ?_, rfl⟩⟩
    exact NameMap.get?_eq_some_iff.1 hevaluated

namespace Session

variable {supply : Supply} {s s' : Session} {journal : List Happening} {c : Change}

theorem exists_seenAt (h : Seen journal s' c) : ∃ i, SeenAt i journal s' c := by
  rcases h with hc | ⟨changes, hreached, hc⟩
  · obtain ⟨i, hi⟩ := List.getElem?_of_mem hc
    exact ⟨i, Or.inl (List.getElem?_map.symm.trans hi)⟩
  · obtain ⟨i, hi⟩ := List.getElem?_of_mem hc
    exact ⟨i, Or.inr ⟨changes, hreached, hi⟩⟩

/-- A change that a run shows is the one of its place after some of the mutations that were let
in. -/
theorem Idle.run_of_seenAt {i : Nat} (hidle : s.Idle) (hreplays : Replays s journal s')
    (hseen : SeenAt i journal s' c) :
    ∃ origin ms, s.change? i = some origin ∧ c = origin.run ms ∧
      ∀ m ∈ ms, .opened i m ∈ journal := by
  obtain ⟨τ, hfollows, hfits, -⟩ := hreplays _ hidle.fits
  rcases hseen with hc | ⟨changes, hreached, hc⟩
  · have hi : s'.changes[i]? = some c := List.getElem?_map.trans hc
    rw [hfits.changes, List.getElem?_map, hfollows.change] at hi
    obtain ⟨cell, hcell, rfl⟩ := Option.map_eq_some_iff.1 hi
    refine ⟨cell.change, _, ?_, rfl, fun m hm => mem_openedOf.1 hm⟩
    rw [← change_cells, hcell]
    rfl
  · obtain ⟨before, later, rfl⟩ := List.append_of_mem hreached
    rw [hfollows.changes_of_reached] at hc
    obtain ⟨cell, hcell, rfl⟩ := Option.map_eq_some_iff.1 hc
    refine ⟨cell.change, _, ?_, rfl, fun m hm => ?_⟩
    · rw [← change_cells, hcell]
      rfl
    · exact List.mem_append_left _ (mem_openedOf.1 hm)

/-- A session as it begins: nothing is running, and the changes are as defined. -/
def Fresh (s : Session) : Prop :=
  ∀ slot ∈ s.slots, slot.mutating = false ∧ ∃ d, Change.ofDefinition d = .ok slot.change

theorem Fresh.idle (hfresh : s.Fresh) : s.Idle :=
  fun slot hslot => (hfresh slot hslot).1

theorem Fresh.empty {i : Nat} (hfresh : s.Fresh) (hc : s.change? i = some c) :
    c.maps = .empty := by
  obtain ⟨slot, hslot, rfl⟩ := Option.map_eq_some_iff.1 hc
  obtain ⟨-, d, hd⟩ := hfresh slot (List.mem_of_getElem? hslot)
  obtain ⟨profile, -, hchange⟩ := Change.ofDefinition_ok hd
  rw [hchange]

/-- **Raw overrides cover evaluated ones in every state that a run shows,** and if no mutation
named the empty package then a save leaves nothing out that is consulted. -/
theorem covered_of_seen (supply : Supply) (commands : List Command) (s : Session)
    (hfresh : s.Fresh) (c : Change)
    (hseen : Seen (s.journalOf supply commands) (s.afterAll supply commands) c) :
    c.maps.Covered ∧
    ((∀ h ∈ s.journalOf supply commands, h.Named) → c.SavesAll) := by
  obtain ⟨i, hseen⟩ := exists_seenAt hseen
  obtain ⟨origin, ms, horigin, rfl, hms⟩ :=
    hfresh.idle.run_of_seenAt (performAll_replays supply commands s) hseen
  have hempty := hfresh.empty horigin
  have hcovered := ((Change.consistent_of_empty hempty).run ms).covered
  refine ⟨hcovered, fun hnamed => Change.savesAll hcovered ?_⟩
  exact Change.named_run (fun m hm => hnamed _ (hms m hm)) (hempty ▸ OverrideMaps.named_empty)

/-- The change of `echoing` after `echo`: the override stands, though its listener failed. -/
def echoed : Change where
  profile := ⟨.one, none, none, false, false, none, true⟩
  maps := ⟨NameMap.empty.insert "app" (.unconditional true), NameMap.empty.insert "app" true⟩
  listener := some 0

theorem echoed_covered :
    echoing.Fresh ∧
    Seen (echoing.journalOf default echo) (echoing.afterAll default echo) echoed ∧
    (∀ h ∈ echoing.journalOf default echo, h.Named) ∧
    echoed.maps.Covered ∧ echoed.SavesAll :=
  have hfresh : echoing.Fresh := by
    intro slot hslot
    cases List.mem_singleton.1 hslot
    refine ⟨rfl, { id := .ofSafeInt .one, overridable := true }, ?_⟩
    simp [Change.ofDefinition, Definition.profile?, Definition.gate]
  have hseen : Seen (echoing.journalOf default echo) (echoing.afterAll default echo) echoed :=
    Or.inl (by
      rw [show (echoing.afterAll default echo).changes = [echoed] by decide +kernel]
      exact List.mem_singleton_self _)
  have hnamed : ∀ h ∈ echoing.journalOf default echo, h.Named := by decide +kernel
  have ⟨hcovered, hsaves⟩ := covered_of_seen default echo echoing hfresh echoed hseen
  ⟨hfresh, hseen, hnamed, hcovered, hsaves hnamed⟩

end Session

end ChangeGate
