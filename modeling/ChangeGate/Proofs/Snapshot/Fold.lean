import ChangeGate.Proofs.NameMap
import ChangeGate.Proofs.Override
import ChangeGate.Snapshot.Basic
/-!
# What a snapshot brings, and what it keeps

Reading a snapshot is a last-wins look-up in each of its categories (`fold_ok`), and
every value of the validated category stands for an override as well, so the maps of a snapshot
have a raw override wherever they have an evaluated one (`covered_of_fold`).

Main statement: `fold_snapshot?`. Maps that are written as a snapshot and read again are the same
maps, but for overrides that the evaluated values imply; where every evaluated value has its raw
override there are none of those (`fold_snapshot?_of_contains_raw`).
-/

namespace ChangeGate

/-! ## Entries -/

namespace RawEntry

variable {e : RawEntry} {p : PackageOverride} {entries : List RawEntry}
  {ranges : List (String × PackageOverride)}

/-- **An override is read back from its entry.** -/
theorem override_ofOverride (name : String) (p : PackageOverride) :
    (ofOverride name p).override = .ok p :=
  PackageOverride.make_map p

/-- **An entry is read as the override that it is the entry of.** -/
theorem override_eq_ok_iff : e.override = .ok p ↔ e = .ofOverride e.packageName p := by
  obtain ⟨name, min, max, enabled⟩ := e
  rw [override, PackageOverride.make_eq_ok_iff, ofOverride, mk.injEq]
  simp

theorem override_eq_error_iff {error : BoundsError} :
    e.override = .error error ↔ BadBounds e.min e.max error :=
  PackageOverride.make_eq_error_iff

/-- And so are entries one after the other. -/
theorem overrides_eq_ok_iff :
    overrides entries = .ok ranges ↔ entries = ranges.map fun r => .ofOverride r.1 r.2 := by
  constructor
  · intro h
    induction entries generalizing ranges with
    | nil => cases h; rfl
    | cons e entries ih =>
      rw [overrides] at h
      split at h
      · cases h
      · rename_i p hp
        split at h
        · cases h
        · rename_i rest hrest
          cases h
          rw [List.map_cons, ← ih hrest, ← override_eq_ok_iff.1 hp]
  · rintro rfl
    induction ranges with
    | nil => rfl
    | cons r ranges ih =>
      rw [List.map_cons, overrides, override_ofOverride]
      dsimp only
      rw [ih]
      rfl

/-- The overrides of entries carry the names of the entries. -/
theorem names_of_overrides (h : overrides entries = .ok ranges) :
    ranges.map (·.1) = entries.map (·.packageName) := by
  rw [overrides_eq_ok_iff.1 h, List.map_map]
  rfl

end RawEntry

/-- **The values of a list of entries,** of which a later one of a package wins. -/
def ValueEntry.values (entries : List ValueEntry) : NameMap Bool :=
  .ofList (entries.map ValueEntry.value)

theorem ValueEntry.get?_unconditional (entries : List ValueEntry) (name : String) :
    (NameMap.ofList (entries.map ValueEntry.unconditional)).get? name =
      ((ValueEntry.values entries).get? name).map .unconditional := by
  have hmap : entries.map ValueEntry.unconditional =
      (entries.map ValueEntry.value).map fun e => (e.1, PackageOverride.unconditional e.2) := by
    rw [List.map_map]
    rfl
  rw [hmap, NameMap.get?_ofList, ← List.map_reverse, NameMap.find?_map, ValueEntry.values,
    NameMap.get?_ofList]

/-- A name that no entry has is given no value. -/
theorem ValueEntry.get?_values_eq_none {entries : List ValueEntry} {name : String}
    (h : ∀ e ∈ entries, e.packageName ≠ name) : (ValueEntry.values entries).get? name = none := by
  refine NameMap.get?_ofList_eq_none fun e he => ?_
  obtain ⟨entry, hentry, rfl⟩ := List.mem_map.1 he
  exact h entry hentry

namespace OverrideMaps

/-- **Every package with an evaluated override has a raw one.** The empty name is no package. -/
def Covered (m : OverrideMaps) : Prop :=
  ∀ name, name ≠ "" → m.evaluated.contains name = true → m.raw.contains name = true

/-- No override is kept for the empty name. -/
def Named (m : OverrideMaps) : Prop :=
  m.raw.contains "" = false ∧ m.evaluated.contains "" = false

theorem covered_empty : empty.Covered := fun _ _ h => h

theorem named_empty : empty.Named := ⟨rfl, rfl⟩

theorem Covered.merge {m n : OverrideMaps} (hm : m.Covered) (hn : n.Covered) :
    (m.merge n).Covered := by
  intro name hname h
  simp only [OverrideMaps.merge, NameMap.contains_merge, Bool.or_eq_true] at h ⊢
  exact h.imp (hn name hname) (hm name hname)

theorem Named.merge {m n : OverrideMaps} (hm : m.Named) (hn : n.Named) : (m.merge n).Named := by
  simp only [Named, OverrideMaps.merge, NameMap.contains_merge, Bool.or_eq_false_iff]
  exact ⟨⟨hn.1, hm.1⟩, ⟨hn.2, hm.2⟩⟩

/-- A value is for a package, and so it has an override. -/
theorem contains_raw {m : OverrideMaps} (hcovered : m.Covered) (hnamed : m.Named) {name : String}
    (h : m.evaluated.contains name = true) : m.raw.contains name = true := by
  refine hcovered name ?_ h
  rintro rfl
  rw [hnamed.2] at h
  cases h

theorem isEmpty_iff {m : OverrideMaps} : m.isEmpty = true ↔ m = empty := by
  obtain ⟨raw, evaluated⟩ := m
  rw [isEmpty, Bool.and_eq_true, NameMap.isEmpty_iff, NameMap.isEmpty_iff, empty, mk.injEq]

end OverrideMaps

namespace Snapshot

/-- **No entry of a snapshot is for the empty name.** -/
structure Named (s : Snapshot) : Prop where
  raw : ∀ e ∈ s.rawEntries, e.packageName ≠ ""
  validated : ∀ e ∈ s.validatedEntries, e.packageName ≠ ""
  deferred : ∀ e ∈ s.deferredEntries, e.packageName ≠ ""

instance (s : Snapshot) : Decidable s.Named :=
  decidable_of_iff
    ((∀ e ∈ s.rawEntries, e.packageName ≠ "") ∧ (∀ e ∈ s.validatedEntries, e.packageName ≠ "") ∧
      ∀ e ∈ s.deferredEntries, e.packageName ≠ "")
    ⟨fun h => ⟨h.1, h.2.1, h.2.2⟩, fun h => ⟨h.raw, h.validated, h.deferred⟩⟩

variable {s : Snapshot} {maps : OverrideMaps}

/-- The look-ups of what a snapshot is read into. -/
theorem fold_ok (h : s.fold = .ok maps) :
    ∃ ranges, RawEntry.overrides s.rawEntries = .ok ranges ∧
      maps.evaluated = ValueEntry.values s.validatedEntries ∧
      ∀ name, maps.raw.get? name =
        (((NameMap.ofList ranges).get? name).or
          ((maps.evaluated.get? name).map .unconditional)).or
            (((ValueEntry.values s.deferredEntries).get? name).map .unconditional) := by
  unfold fold at h
  split at h
  · cases h
  · rename_i ranges hranges
    cases h
    refine ⟨ranges, hranges, rfl, fun name => ?_⟩
    -- the entries stand in the order deferred, validated, raw, and the last one of a name wins
    rw [NameMap.get?_ofList_append, NameMap.get?_ofList_append, ValueEntry.get?_unconditional,
      ValueEntry.get?_unconditional, Option.or_assoc]
    rfl

/-- Nothing but a bad range keeps a snapshot from being read. -/
theorem exists_fold {ranges : List (String × PackageOverride)}
    (h : RawEntry.overrides s.rawEntries = .ok ranges) : ∃ maps, s.fold = .ok maps := by
  unfold fold
  rw [h]
  exact ⟨_, rfl⟩

/-- A validated value is an override too, whatever its name. -/
theorem contains_raw_of_fold (h : s.fold = .ok maps) (name : String)
    (hevaluated : maps.evaluated.contains name = true) : maps.raw.contains name = true := by
  obtain ⟨ranges, -, -, hraw⟩ := fold_ok h
  obtain ⟨value, hvalue⟩ := NameMap.contains_iff.1 hevaluated
  rw [NameMap.contains, hraw, hvalue]
  simp

/-- **A snapshot covers what it brings.** -/
theorem covered_of_fold (h : s.fold = .ok maps) : maps.Covered :=
  fun name _ => contains_raw_of_fold h name

/-- A snapshot of packages brings no override for the empty name. -/
theorem Named.fold (hs : s.Named) (h : s.fold = .ok maps) : maps.Named := by
  obtain ⟨ranges, hranges, hevaluated, hraw⟩ := fold_ok h
  have hrange : (NameMap.ofList ranges).get? "" = none := by
    refine NameMap.get?_ofList_eq_none fun e he => ?_
    have hmem : e.1 ∈ s.rawEntries.map (·.packageName) :=
      RawEntry.names_of_overrides hranges ▸ List.mem_map_of_mem he
    obtain ⟨entry, hentry, hname⟩ := List.mem_map.1 hmem
    exact hname ▸ hs.raw entry hentry
  have hvalidated := ValueEntry.get?_values_eq_none hs.validated
  have hdeferred := ValueEntry.get?_values_eq_none hs.deferred
  refine ⟨?_, ?_⟩
  · rw [NameMap.contains, hraw, hevaluated, hrange, hvalidated, hdeferred]
    rfl
  · rw [NameMap.contains, hevaluated, hvalidated]
    rfl

end Snapshot

/-! ## Writing and reading again -/

namespace OverrideMaps

variable {m : OverrideMaps} {id : Number} {s : Snapshot}

/-- **What is written of two maps:** all entries of both, and none that is deferred. -/
theorem snapshot?_some (h : m.snapshot? id = some s) :
    m.raw.isEmpty = false ∧ s.changeId = id ∧
      s.rawEntries = m.raw.entries.map (fun e => .ofOverride e.1 e.2) ∧
      s.validatedEntries = m.evaluated.entries.map (fun e => ⟨e.1, e.2⟩) ∧
      s.deferredEntries = [] := by
  unfold snapshot? at h
  split at h
  · cases h
  · rename_i hempty
    cases h
    exact ⟨by simpa using hempty, rfl, rfl, rfl, rfl⟩

/-- Nothing is written only if there is no raw override. -/
theorem snapshot?_eq_none_iff : m.snapshot? id = none ↔ m.raw.isEmpty = true := by
  unfold snapshot?
  split
  · rename_i hempty
    exact ⟨fun _ => hempty, fun _ => rfl⟩
  · rename_i hempty
    exact ⟨fun h => absurd h (Option.some_ne_none _), fun h => absurd h hempty⟩

/-- **Written and read again:** the evaluated overrides as they were, the raw ones as well, and
an unconditional one wherever there was a value without an override. -/
theorem fold_snapshot? (h : m.snapshot? id = some s) :
    ∃ maps, s.fold = .ok maps ∧ maps.evaluated = m.evaluated ∧
      ∀ name, maps.raw.get? name =
        (m.raw.get? name).or ((m.evaluated.get? name).map .unconditional) := by
  obtain ⟨-, -, hrawEntries, hvalidated, hdeferred⟩ := snapshot?_some h
  have hread : RawEntry.overrides s.rawEntries = .ok m.raw.entries :=
    RawEntry.overrides_eq_ok_iff.2 hrawEntries
  have hvalues : ValueEntry.values s.validatedEntries = m.evaluated := by
    rw [hvalidated, ValueEntry.values, List.map_map]
    exact (congrArg NameMap.ofList (List.map_id' _)).trans (NameMap.ofList_entries _)
  obtain ⟨maps, hmaps⟩ := Snapshot.exists_fold hread
  obtain ⟨ranges, hranges, hevaluated, hraw⟩ := Snapshot.fold_ok hmaps
  rw [hread] at hranges
  cases hranges
  refine ⟨maps, hmaps, hevaluated.trans hvalues, fun name => ?_⟩
  rw [hraw, NameMap.ofList_entries, hevaluated, hvalues, hdeferred]
  simp [ValueEntry.values, NameMap.ofList]

/-- Where every value has its override, completing adds none. -/
theorem eq_of_contains_raw {maps : OverrideMaps}
    (hcontains : ∀ name, m.evaluated.contains name = true → m.raw.contains name = true)
    (hevaluated : maps.evaluated = m.evaluated)
    (hraw : ∀ name, maps.raw.get? name =
      (m.raw.get? name).or ((m.evaluated.get? name).map .unconditional)) : maps = m := by
  have hsame : maps.raw = m.raw := by
    refine NameMap.ext_get? fun name => ?_
    rw [hraw]
    cases hvalue : m.evaluated.get? name with
    | none => rw [Option.map_none, Option.or_none]
    | some value =>
      obtain ⟨p, hp⟩ := NameMap.contains_iff.1
        (hcontains name (NameMap.contains_iff.2 ⟨value, hvalue⟩))
      rw [hp, Option.some_or]
  obtain ⟨raw, evaluated⟩ := maps
  cases hsame
  cases hevaluated
  rfl

/-- **Where every value has its override, nothing is added.** -/
theorem fold_snapshot?_of_contains_raw
    (hcontains : ∀ name, m.evaluated.contains name = true → m.raw.contains name = true)
    (h : m.snapshot? id = some s) : s.fold = .ok m := by
  obtain ⟨maps, hfold, hevaluated, hraw⟩ := fold_snapshot? h
  rwa [eq_of_contains_raw hcontains hevaluated hraw] at hfold

theorem fold_snapshot?_of_covered (hcovered : m.Covered) (hnamed : m.Named)
    (h : m.snapshot? id = some s) : s.fold = .ok m :=
  fold_snapshot?_of_contains_raw (fun _ => contains_raw hcovered hnamed) h

end OverrideMaps

end ChangeGate
