import ChangeGate.Proofs.NameMap
import ChangeGate.Proofs.Override.Range
import ChangeGate.Proofs.Snapshot.Schema
/-!
# What the check of a state file lets through

The check of a state file and `PackageOverride.make` look at the bounds of a range independently of
each other. They agree: in a file that is accepted every bound is a safe integer, and a lower one
is not above its upper one. So every snapshot of it can be read, and brings an override exactly if
it has an entry (`exists_fold_of_accepted`).
-/

namespace ChangeGate

variable {α β : Type}

/-! ## Parts of what is accepted -/

namespace Checked

theorem result_eq_ok_iff {c : Checked α} {a : α} :
    c.result = .ok a ↔ c.issues = [] ∧ c.read = some a := by
  unfold result
  split
  · rename_i hissues hread
    simp [hissues, hread]
  · rename_i hother
    refine ⟨nofun, fun ⟨hissues, hread⟩ => ?_⟩
    exact absurd hread (hother a hissues)

theorem map_ok {c : Checked α} {f : α → β} {b : β} (h : (c.map f).result = .ok b) :
    ∃ a, c.result = .ok a ∧ f a = b := by
  obtain ⟨hissues, hread⟩ := result_eq_ok_iff.1 h
  obtain ⟨a, ha, hfa⟩ := Option.map_eq_some_iff.1 hread
  exact ⟨a, result_eq_ok_iff.2 ⟨hissues, ha⟩, hfa⟩

/-- **What is put together of parts is accepted only if they are.** -/
theorem apply_ok {c : Checked (α → β)} {d : Checked α} {b : β} (h : (c.apply d).result = .ok b) :
    ∃ f a, c.result = .ok f ∧ d.result = .ok a ∧ f a = b := by
  obtain ⟨hissues, hread⟩ := result_eq_ok_iff.1 h
  obtain ⟨hleft, hright⟩ := List.append_eq_nil_iff.1 hissues
  dsimp only [apply] at hread
  split at hread
  · rename_i f a hf ha
    cases hread
    exact ⟨f, a, result_eq_ok_iff.2 ⟨hleft, hf⟩, result_eq_ok_iff.2 ⟨hright, ha⟩, rfl⟩
  · cases hread

end Checked

namespace Check

variable {c : Check α} {path : List PathStep} {v : Option Json}

theorem optional_ok {a? : Option α} (h : (Check.optional c path v).result = .ok a?) :
    ∀ a ∈ a?, (c path v).result = .ok a := by
  intro a ha
  cases v with
  | none =>
    cases h
    cases ha
  | some v =>
    obtain ⟨b, hb, hsome⟩ := Checked.map_ok h
    rw [← hsome] at ha
    cases ha
    exact hb

theorem list_ok {items : List α} (h : (Check.list c path v).result = .ok items) :
    ∀ a ∈ items, ∃ path v, (c path v).result = .ok a := by
  have hitems : ∀ i values items, (itemsFrom c path i values).result = .ok items →
      ∀ a ∈ items, ∃ path v, (c path v).result = .ok a := by
    intro i values items hvalues
    induction values generalizing i items with
    | nil =>
      cases hvalues
      exact fun a ha => absurd ha List.not_mem_nil
    | cons value values ih =>
      obtain ⟨f, rest, hf, hrest, rfl⟩ := Checked.apply_ok hvalues
      obtain ⟨a, ha, rfl⟩ := Checked.map_ok hf
      exact List.forall_mem_cons.2 ⟨⟨_, _, ha⟩, ih (i + 1) rest hrest⟩
  unfold Check.list at h
  split at h
  · exact hitems 0 _ items h
  · cases h

theorem object_ok {f : List PathStep → List (String × Json) → Checked α} {a : α}
    (h : (Check.object f path v).result = .ok a) : ∃ members, (f path members).result = .ok a := by
  unfold Check.object at h
  split at h
  · exact ⟨_, h⟩
  · cases h

end Check

/-! ## Bounds -/

/-- An integer between the ends of the safe range is a safe integer. -/
theorem Number.isSome_toSafeInt? {x : Number} (hinteger : x.toInt?.isSome = true)
    (hleast : x.lt (.ofSafeInt .least) = false)
    (hgreatest : (Number.ofSafeInt .greatest).lt x = false) : x.toSafeInt?.isSome = true := by
  obtain ⟨n, hn⟩ := Option.isSome_iff_exists.1 hinteger
  obtain ⟨fits, rfl⟩ := toInt?_eq_some_iff.1 hn
  have hlower : SafeInt.least.val ≤ n := by
    refine Int.not_lt.1 fun hlt => ?_
    simp [lt, ofSafeInt, Int.mul_lt_mul_right cast_stepsPerOne_pos, hlt] at hleast
  have hupper : n ≤ SafeInt.greatest.val := by
    refine Int.not_lt.1 fun hlt => ?_
    simp [lt, ofSafeInt, Int.mul_lt_mul_right cast_stepsPerOne_pos, hlt] at hgreatest
  rw [toSafeInt?, hn, Option.bind_some, SafeInt.ofInt?, dif_pos ⟨hlower, hupper⟩]
  rfl

/-- **A version code that is accepted is a safe integer.** -/
theorem Check.versionCode_ok {path : List PathStep} {v : Option Json} {x : Number}
    (h : (versionCode path v).result = .ok x) : x.toSafeInt?.isSome = true := by
  obtain ⟨hissues, hread⟩ := Checked.result_eq_ok_iff.1 h
  unfold versionCode at hissues hread
  split at hread
  · rename_i y
    cases hread
    obtain ⟨hinteger, hrange⟩ := List.append_eq_nil_iff.1 hissues
    unfold integerIssues at hinteger
    unfold rangeIssues at hrange
    split at hinteger
    · rename_i hsome
      split at hrange
      · cases hrange
      · rename_i hleast
        split at hrange
        · cases hrange
        · rename_i hgreatest
          exact Number.isSome_toSafeInt? hsome (Bool.eq_false_iff.2 hleast)
            (Bool.eq_false_iff.2 hgreatest)
    · cases hinteger
  · cases hread

/-! ## Entries -/

/-- **What is accepted as an entry with a range:** a name, two bounds, and the bounds are in
order. -/
theorem RawEntry.check_ok {path : List PathStep} {v : Option Json} {e : RawEntry}
    (h : (RawEntry.check path v).result = .ok e) :
    (∃ path v, (Check.name path v).result = .ok e.packageName) ∧
      (∃ path v, (Check.optional Check.versionCode path v).result = .ok e.min) ∧
      (∃ path v, (Check.optional Check.versionCode path v).result = .ok e.max) ∧
      orderIssues path (some e) = [] := by
  obtain ⟨hissues, hread⟩ := Checked.result_eq_ok_iff.1 h
  obtain ⟨hentry, horder⟩ := List.append_eq_nil_iff.1 hissues
  have hobject : (Check.object checkMembers path v).result = .ok e :=
    Checked.result_eq_ok_iff.2 ⟨hentry, hread⟩
  change orderIssues path (RawEntry.check path v).read = [] at horder
  rw [hread] at horder
  obtain ⟨members, h₄⟩ := Check.object_ok hobject
  obtain ⟨_, enabled, h₃, -, rfl⟩ := Checked.apply_ok h₄
  obtain ⟨_, max, h₂, hmax, rfl⟩ := Checked.apply_ok h₃
  obtain ⟨_, min, h₁, hmin, rfl⟩ := Checked.apply_ok h₂
  obtain ⟨name, hname, rfl⟩ := Checked.map_ok h₁
  exact ⟨⟨_, _, hname⟩, ⟨_, _, hmin⟩, ⟨_, _, hmax⟩, horder⟩

theorem RawEntry.override_of_check {path : List PathStep} {v : Option Json} {e : RawEntry}
    (h : (RawEntry.check path v).result = .ok e) : ∃ p, e.override = .ok p := by
  obtain ⟨-, ⟨_, _, hmin⟩, ⟨_, _, hmax⟩, horder⟩ := RawEntry.check_ok h
  obtain ⟨name, min, max, enabled⟩ := e
  refine PackageOverride.exists_make_iff.2 ⟨fun x hx => ?_, fun x hx => ?_, ?_⟩
  · exact Number.isSafe_iff.2 (Check.versionCode_ok (Check.optional_ok hmin x hx))
  · exact Number.isSafe_iff.2 (Check.versionCode_ok (Check.optional_ok hmax x hx))
  · rintro a rfl b rfl
    unfold orderIssues at horder
    dsimp only at horder
    split at horder
    · assumption
    · cases horder

theorem RawEntry.exists_overrides {entries : List RawEntry}
    (h : ∀ e ∈ entries, ∃ p, e.override = .ok p) :
    ∃ ranges, RawEntry.overrides entries = .ok ranges := by
  induction entries with
  | nil => exact ⟨[], rfl⟩
  | cons e entries ih =>
    obtain ⟨p, hp⟩ := h e List.mem_cons_self
    obtain ⟨ranges, hranges⟩ := ih fun e he => h e (List.mem_cons_of_mem _ he)
    exact ⟨(e.packageName, p) :: ranges, by simp only [RawEntry.overrides, hp, hranges]⟩

/-! ## Snapshots -/

/-- An entry of a category has been accepted by itself. -/
theorem Check.category_ok {c : Check α} {path : List PathStep} {v : Option Json}
    {entries : Option (List α)} (h : (Check.optional (Check.list c) path v).result = .ok entries) :
    ∀ e ∈ entries.getD [], ∃ path v, (c path v).result = .ok e := by
  cases entries with
  | none => exact fun e he => absurd he List.not_mem_nil
  | some entries => exact Check.list_ok (Check.optional_ok h entries rfl)

/-- **What is accepted as a snapshot:** each entry of each category has been accepted. -/
theorem Snapshot.check_ok {path : List PathStep} {v : Option Json} {s : Snapshot}
    (h : (Snapshot.check path v).result = .ok s) :
    (∀ e ∈ s.rawEntries, ∃ path v, (RawEntry.check path v).result = .ok e) ∧
      (∀ e ∈ s.validatedEntries, ∃ path v, (ValueEntry.check path v).result = .ok e) ∧
      ∀ e ∈ s.deferredEntries, ∃ path v, (ValueEntry.check path v).result = .ok e := by
  obtain ⟨members, h₄⟩ := Check.object_ok h
  obtain ⟨_, deferred, h₃, hdeferred, rfl⟩ := Checked.apply_ok h₄
  obtain ⟨_, validated, h₂, hvalidated, rfl⟩ := Checked.apply_ok h₃
  obtain ⟨_, raw, h₁, hraw, rfl⟩ := Checked.apply_ok h₂
  obtain ⟨changeId, -, rfl⟩ := Checked.map_ok h₁
  exact ⟨Check.category_ok hraw, Check.category_ok hvalidated, Check.category_ok hdeferred⟩

theorem Snapshot.exists_fold_of_check {path : List PathStep} {v : Option Json} {s : Snapshot}
    (h : (Snapshot.check path v).result = .ok s) : ∃ maps, s.fold = .ok maps := by
  obtain ⟨ranges, hranges⟩ := RawEntry.exists_overrides fun e he =>
    have ⟨_, _, hentry⟩ := (Snapshot.check_ok h).1 e he
    RawEntry.override_of_check hentry
  exact exists_fold hranges

theorem NameMap.isEmpty_ofList (entries : List (String × α)) :
    (NameMap.ofList entries).isEmpty = entries.isEmpty := by
  rcases List.eq_nil_or_concat entries with rfl | ⟨init, last, rfl⟩
  · rfl
  · -- the last entry is found
    have hlast : (ofList (init.concat last)).contains last.1 = true := by
      refine contains_iff.2 ⟨last.2, ?_⟩
      rw [get?_ofList, List.concat_eq_append, List.reverse_append]
      simp [find?]
    rw [isEmpty_eq_false_of_contains hlast]
    simp

/-- **A snapshot brings something exactly if it has an entry.** -/
theorem Snapshot.isEmpty_of_fold {s : Snapshot} {maps : OverrideMaps} (h : s.fold = .ok maps) :
    maps.isEmpty = !s.hasEntries := by
  unfold fold at h
  split at h
  · cases h
  · rename_i ranges hranges
    cases h
    have hnil : ranges = [] ↔ s.rawEntries = [] := by
      rw [← List.map_eq_nil_iff (f := (·.1)), RawEntry.names_of_overrides hranges,
        List.map_eq_nil_iff]
    rw [Bool.eq_iff_iff]
    simp only [OverrideMaps.isEmpty, NameMap.isEmpty_ofList, hasEntries, Bool.not_not,
      Bool.and_eq_true, List.isEmpty_iff, List.append_eq_nil_iff, List.map_eq_nil_iff, hnil]
    constructor
    · rintro ⟨⟨⟨hdeferred, hvalidated⟩, hraw⟩, -⟩
      exact ⟨⟨hraw, hvalidated⟩, hdeferred⟩
    · rintro ⟨⟨hraw, hvalidated⟩, hdeferred⟩
      exact ⟨⟨⟨hdeferred, hvalidated⟩, hraw⟩, hvalidated⟩

/-- **What is accepted as a file:** each of its snapshots has been accepted. -/
theorem StateFile.check_ok {v : Json} {file : StateFile}
    (h : (StateFile.check [] (some v)).result = .ok file) :
    ∀ s ∈ file.changes, ∃ path v, (Snapshot.check path v).result = .ok s := by
  obtain ⟨members, h₂⟩ := Check.object_ok h
  obtain ⟨_, changes, h₁, hchanges, rfl⟩ := Checked.apply_ok h₂
  obtain ⟨_, -, rfl⟩ := Checked.map_ok h₁
  exact Check.list_ok hchanges

/-- **Every snapshot of a file that is accepted can be read,** whatever its bounds, and brings
something exactly if it has an entry. -/
theorem StateFile.exists_fold_of_accepted {v : Json} {file : StateFile}
    (h : (StateFile.check [] (some v)).result = .ok file) :
    ∀ s ∈ file.changes, ∃ maps, s.fold = .ok maps ∧ maps.isEmpty = !s.hasEntries := by
  intro s hs
  obtain ⟨_, _, hsnapshot⟩ := StateFile.check_ok h s hs
  obtain ⟨maps, hmaps⟩ := Snapshot.exists_fold_of_check hsnapshot
  exact ⟨maps, hmaps, Snapshot.isEmpty_of_fold hmaps⟩

/-! ## Names -/

/-- **A name that is accepted is not empty.** -/
theorem Check.name_ok {path : List PathStep} {v : Option Json} {s : String}
    (h : (Check.name path v).result = .ok s) : s ≠ "" := by
  obtain ⟨hissues, hread⟩ := Checked.result_eq_ok_iff.1 h
  unfold Check.name at hissues hread
  split at hread
  · rename_i text
    cases hread
    rintro rfl
    cases hissues
  · cases hread

theorem RawEntry.named_of_check {path : List PathStep} {v : Option Json} {e : RawEntry}
    (h : (RawEntry.check path v).result = .ok e) : e.packageName ≠ "" :=
  have ⟨⟨_, _, hname⟩, _⟩ := RawEntry.check_ok h
  Check.name_ok hname

theorem ValueEntry.named_of_check {path : List PathStep} {v : Option Json} {e : ValueEntry}
    (h : (ValueEntry.check path v).result = .ok e) : e.packageName ≠ "" := by
  obtain ⟨members, h₂⟩ := Check.object_ok h
  obtain ⟨_, enabled, h₁, -, rfl⟩ := Checked.apply_ok h₂
  obtain ⟨name, hname, rfl⟩ := Checked.map_ok h₁
  exact Check.name_ok hname

theorem Snapshot.named_of_check {path : List PathStep} {v : Option Json} {s : Snapshot}
    (h : (Snapshot.check path v).result = .ok s) : s.Named := by
  obtain ⟨hraw, hvalidated, hdeferred⟩ := Snapshot.check_ok h
  exact {
    raw := fun e he =>
      have ⟨_, _, hentry⟩ := hraw e he
      RawEntry.named_of_check hentry
    validated := fun e he =>
      have ⟨_, _, hentry⟩ := hvalidated e he
      ValueEntry.named_of_check hentry
    deferred := fun e he =>
      have ⟨_, _, hentry⟩ := hdeferred e he
      ValueEntry.named_of_check hentry }

/-- **No entry of a file that is accepted is for the empty name.** -/
theorem StateFile.named_of_accepted {v : Json} {file : StateFile}
    (h : (StateFile.check [] (some v)).result = .ok file) : ∀ s ∈ file.changes, s.Named := by
  intro s hs
  obtain ⟨_, _, hsnapshot⟩ := StateFile.check_ok h s hs
  exact Snapshot.named_of_check hsnapshot

end ChangeGate
