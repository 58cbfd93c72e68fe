import ChangeGate.Proofs.Snapshot.Accepted
import ChangeGate.Proofs.Snapshot.Fold
/-!
# Maps written and read again

What is written of two maps is read back as their completion: the same maps, with an override for
every value that has none. Reading completes on its own, so what a snapshot is read into is written
and read again without a difference.
-/

namespace ChangeGate

namespace OverrideMaps

/-- **The completion of maps.** A value without a raw override gets one that holds for every
version, and nothing else is added; so maps are their own completion exactly if every value has its
raw override. -/
structure Completion (m maps : OverrideMaps) : Prop where
  evaluated : maps.evaluated = m.evaluated
  kept : ∀ name override, m.raw.get? name = some override → maps.raw.get? name = some override
  added : ∀ name enabled, m.raw.get? name = none → m.evaluated.get? name = some enabled →
    maps.raw.get? name = some (.unconditional enabled)
  absent : ∀ name, m.raw.get? name = none → m.evaluated.get? name = none →
    maps.raw.get? name = none
  complete : maps = m ↔ ∀ name, m.evaluated.contains name = true → m.raw.contains name = true

variable {m maps : OverrideMaps} {id : Number}

/-- **Raw overrides first, and then the values,** make the completion. -/
theorem completion_of_get? (hevaluated : maps.evaluated = m.evaluated)
    (hraw : ∀ name, maps.raw.get? name =
      (m.raw.get? name).or ((m.evaluated.get? name).map .unconditional)) : m.Completion maps where
  evaluated := hevaluated
  kept name override h := by rw [hraw, h, Option.some_or]
  added name enabled hnone h := by rw [hraw, hnone, h, Option.none_or, Option.map_some]
  absent name hnone h := by rw [hraw, hnone, h, Option.none_or, Option.map_none]
  complete := by
    refine ⟨?_, fun hcontains => eq_of_contains_raw hcontains hevaluated hraw⟩
    rintro rfl name hcontains
    obtain ⟨value, hvalue⟩ := NameMap.contains_iff.1 hcontains
    rw [NameMap.contains, hraw, hvalue]
    simp

/-- Maps with a raw override are written. -/
theorem exists_snapshot? (h : m.raw.isEmpty = false) (id : Number) :
    ∃ s, m.snapshot? id = some s := by
  refine Option.ne_none_iff_exists'.1 fun hnone => ?_
  rw [snapshot?_eq_none_iff, h] at hnone
  cases hnone

/-- Where every value has its raw override, the maps are empty if there is no raw override. -/
theorem isEmpty_raw_iff
    (hcontains : ∀ name, m.evaluated.contains name = true → m.raw.contains name = true) :
    m.raw.isEmpty = true ↔ m.isEmpty = true := by
  rw [isEmpty, Bool.and_eq_true]
  refine ⟨fun hraw => ⟨hraw, ?_⟩, And.left⟩
  rw [NameMap.isEmpty_iff] at hraw ⊢
  refine NameMap.eq_empty_iff.2 fun name => ?_
  cases hvalue : m.evaluated.get? name with
  | none => rfl
  | some value =>
    have h := hcontains name (NameMap.contains_iff.2 ⟨value, hvalue⟩)
    rw [hraw, NameMap.contains_empty] at h
    cases h

/-- **To read undoes to write, up to the completion.** Whatever maps with a raw override are written
under, be they of a change that can be reached or not, they are read back and are the completion.
And what a snapshot is read into is written unless the snapshot has no entry, and it is read back as
it is. -/
theorem fold_undoes_snapshot :
    (∀ (m : OverrideMaps) (id : Number), m.raw.isEmpty = false →
      ∃ s maps, m.snapshot? id = some s ∧ s.fold = .ok maps ∧ m.Completion maps) ∧
    ∀ (s : Snapshot) (maps : OverrideMaps) (id : Number), s.fold = .ok maps →
      (maps.snapshot? id = none ↔ s.hasEntries = false) ∧
      ∀ t, maps.snapshot? id = some t → t.fold = .ok maps := by
  constructor
  · intro m id hraw
    obtain ⟨s, hs⟩ := exists_snapshot? hraw id
    obtain ⟨maps, hfold, hevaluated, hlookup⟩ := fold_snapshot? hs
    exact ⟨s, maps, hs, hfold, completion_of_get? hevaluated hlookup⟩
  · intro s maps id hfold
    have hcontains := Snapshot.contains_raw_of_fold hfold
    refine ⟨?_, fun t ht => fold_snapshot?_of_contains_raw hcontains ht⟩
    rw [snapshot?_eq_none_iff, isEmpty_raw_iff hcontains, Snapshot.isEmpty_of_fold hfold,
      Bool.not_eq_true']

/-- Maps that no mutations lead to: a value of `lib` without its raw override. -/
def uneven : OverrideMaps where
  raw := NameMap.empty.insert "app" (.unconditional true)
  evaluated := (NameMap.empty.insert "app" false).insert "lib" false

/-- A snapshot that says twice what holds for `app`, in no order of names. -/
def repetitive : Snapshot where
  changeId := .ofSafeInt .one
  validated := some [⟨"lib", true⟩, ⟨"app", true⟩, ⟨"app", false⟩]
  deferred := some [⟨"app", true⟩]

theorem uneven_fold_undoes :
    uneven.raw.isEmpty = false ∧
    (∃ s maps, uneven.snapshot? (.ofSafeInt .one) = some s ∧ s.fold = .ok maps ∧
      uneven.Completion maps) ∧
    ∃ maps, repetitive.fold = .ok maps ∧
      (maps.snapshot? (.ofSafeInt .one) = none ↔ repetitive.hasEntries = false) ∧
      ∀ t, maps.snapshot? (.ofSafeInt .one) = some t → t.fold = .ok maps :=
  have hraw : uneven.raw.isEmpty = false := by decide +kernel
  have ⟨hwritten, hread⟩ := fold_undoes_snapshot
  have hranges : RawEntry.overrides repetitive.rawEntries = .ok [] := rfl
  have ⟨maps, hmaps⟩ := Snapshot.exists_fold hranges
  ⟨hraw, hwritten uneven _ hraw, maps, hmaps, hread repetitive maps _ hmaps⟩

end OverrideMaps

end ChangeGate
