import ChangeGate.Proofs.Snapshot.Fold
/-!
# Which entry of a snapshot counts

A package may have entries in all three categories, and several in one. `lastOf?` is the last one of
a category, and `Snapshot.Overwrites` says in these terms alone what a snapshot makes of the maps
that it is merged into.
-/

namespace ChangeGate

variable {α β : Type}

/-- **The last item of a name.** -/
def lastOf? (nameOf : α → String) (name : String) (items : List α) : Option α :=
  (items.filter fun item => nameOf item = name).getLast?

theorem nameOf_lastOf? {nameOf : α → String} {name : String} {items : List α} {item : α}
    (h : lastOf? nameOf name items = some item) : nameOf item = name := by
  have hmem := (List.mem_filter.1 (List.mem_of_getLast? h)).2
  simpa using hmem

theorem lastOf?_map (nameOf : β → String) (f : α → β) (name : String) (items : List α) :
    lastOf? nameOf name (items.map f) = (lastOf? (fun a => nameOf (f a)) name items).map f := by
  rw [lastOf?, List.filter_map, List.getLast?_map]
  rfl

/-- **A map that is filled keeps the last entry of a name.** -/
theorem NameMap.get?_ofList_eq_lastOf? (entries : List (String × α)) (name : String) :
    (NameMap.ofList entries).get? name = (lastOf? (·.1) name entries).map (·.2) := by
  rw [get?_ofList]
  induction entries with
  | nil => rfl
  | cons e entries ih =>
    obtain ⟨k, v⟩ := e
    rw [List.reverse_cons, find?_append, ih, lastOf?, lastOf?]
    by_cases hk : k = name
    · rw [List.filter_cons_of_pos (by simpa using hk), List.getLast?_cons]
      cases (entries.filter fun e => decide (e.1 = name)).getLast? <;> simp [find?, hk]
    · rw [List.filter_cons_of_neg (by simpa using hk)]
      simp [find?, hk]

theorem ValueEntry.get?_values (entries : List ValueEntry) (name : String) :
    (ValueEntry.values entries).get? name =
      (lastOf? ValueEntry.packageName name entries).map ValueEntry.enabled := by
  rw [values, NameMap.get?_ofList_eq_lastOf?, lastOf?_map, Option.map_map]
  rfl

namespace RawEntry

variable {entries : List RawEntry} {ranges : List (String × PackageOverride)}

/-- The last entry of a package is that of its override. -/
theorem lastOf?_of_overrides (h : overrides entries = .ok ranges) (name : String) :
    lastOf? packageName name entries =
      ((NameMap.ofList ranges).get? name).map (.ofOverride name) := by
  rw [NameMap.get?_ofList_eq_lastOf?, overrides_eq_ok_iff.1 h, lastOf?_map, Option.map_map]
  refine Option.map_congr fun r hr => ?_
  have hname : r.1 = name := nameOf_lastOf? hr
  rw [hname]
  rfl

end RawEntry

namespace Snapshot

/-- **What a snapshot makes of maps,** package by package. For a raw override the last entry of the
raw category counts, and without one the last validated one, and without either the last deferred
one; for a value the last validated entry does. What no entry is about stays. -/
structure Overwrites (s : Snapshot) (before after : OverrideMaps) : Prop where
  raw : ∀ name entry, lastOf? RawEntry.packageName name s.rawEntries = some entry →
    ∃ p, entry = .ofOverride name p ∧ after.raw.get? name = some p
  validated : ∀ name entry, lastOf? RawEntry.packageName name s.rawEntries = none →
    lastOf? ValueEntry.packageName name s.validatedEntries = some entry →
    after.raw.get? name = some (.unconditional entry.enabled)
  deferred : ∀ name entry, lastOf? RawEntry.packageName name s.rawEntries = none →
    lastOf? ValueEntry.packageName name s.validatedEntries = none →
    lastOf? ValueEntry.packageName name s.deferredEntries = some entry →
    after.raw.get? name = some (.unconditional entry.enabled)
  rawKept : ∀ name, lastOf? RawEntry.packageName name s.rawEntries = none →
    lastOf? ValueEntry.packageName name s.validatedEntries = none →
    lastOf? ValueEntry.packageName name s.deferredEntries = none →
    after.raw.get? name = before.raw.get? name
  value : ∀ name entry, lastOf? ValueEntry.packageName name s.validatedEntries = some entry →
    after.evaluated.get? name = some entry.enabled
  valueKept : ∀ name, lastOf? ValueEntry.packageName name s.validatedEntries = none →
    after.evaluated.get? name = before.evaluated.get? name

/-- **What a snapshot is read into overwrites the maps that it is merged into.** -/
theorem overwrites_of_fold {s : Snapshot} {maps : OverrideMaps} (h : s.fold = .ok maps)
    (before : OverrideMaps) : s.Overwrites before (before.merge maps) := by
  obtain ⟨ranges, hranges, hevaluated, hraw⟩ := fold_ok h
  have hlast := RawEntry.lastOf?_of_overrides hranges
  have hvalue : ∀ name, (before.merge maps).evaluated.get? name =
      ((lastOf? ValueEntry.packageName name s.validatedEntries).map ValueEntry.enabled).or
        (before.evaluated.get? name) := fun name => by
    rw [OverrideMaps.merge, NameMap.get?_merge, hevaluated, ValueEntry.get?_values]
  have hmerged : ∀ name, (before.merge maps).raw.get? name =
      ((((NameMap.ofList ranges).get? name).or
        ((lastOf? ValueEntry.packageName name s.validatedEntries).map fun e =>
          .unconditional e.enabled)).or
            ((lastOf? ValueEntry.packageName name s.deferredEntries).map fun e =>
              .unconditional e.enabled)).or (before.raw.get? name) := fun name => by
    rw [OverrideMaps.merge, NameMap.get?_merge, hraw, hevaluated, ValueEntry.get?_values,
      ValueEntry.get?_values, Option.map_map, Option.map_map]
    rfl
  refine {
    raw := fun name entry hentry => ?_
    validated := fun name entry hnone hentry => ?_
    deferred := fun name entry hnone hnone' hentry => ?_
    rawKept := fun name hnone hnone' hnone'' => ?_
    value := fun name entry hentry => by rw [hvalue, hentry, Option.map_some, Option.some_or]
    valueKept := fun name hnone => by rw [hvalue, hnone, Option.map_none, Option.none_or] }
  · obtain ⟨p, hp, rfl⟩ := Option.map_eq_some_iff.1 ((hlast name).symm.trans hentry)
    exact ⟨p, rfl, by rw [hmerged, hp, Option.some_or, Option.some_or, Option.some_or]⟩
  · have hrange := Option.map_eq_none_iff.1 ((hlast name).symm.trans hnone)
    simp [hmerged, hrange, hentry]
  · have hrange := Option.map_eq_none_iff.1 ((hlast name).symm.trans hnone)
    simp [hmerged, hrange, hnone', hentry]
  · have hrange := Option.map_eq_none_iff.1 ((hlast name).symm.trans hnone)
    simp [hmerged, hrange, hnone', hnone'']

end Snapshot

end ChangeGate
