import ChangeGate.Override.Draft
import ChangeGate.Proofs.Override.Range
import ChangeGate.Schema.Issue
/-!
# What a draft is built into

A draft is edited and built in any order, and a build that fails is no end of it. `latest` is what
the edits of one kind have set last, and `ofLatest` the draft that has these parts, said without
any run. One edit after another makes just this draft (`afterAll_eq_ofLatest`), so every build is
answered by what was set last before it, and by nothing else (`answers_by_last_set`).
-/

namespace ChangeGate.OverrideDraft

namespace Edit

/-- The lower bound that an edit sets; `some none` clears it. -/
def min? : Edit → Option (Option Number)
  | .setMin value => some value
  | _ => none

/-- The upper bound that an edit sets; `some none` clears it. -/
def max? : Edit → Option (Option Number)
  | .setMax value => some value
  | _ => none

/-- The flag that an edit sets. -/
def enabled? : Edit → Option Bool
  | .setEnabled value => some value
  | _ => none

end Edit

variable {α : Type}

/-- **What the edits have set last,** or else what it is initially. -/
def latest (sets? : Edit → Option α) (initial : α) (edits : List Edit) : α :=
  (edits.filterMap sets?).getLast?.getD initial

/-- **The draft of what was set last:** without bounds and off where nothing was. -/
def ofLatest (edits : List Edit) : OverrideDraft where
  min := latest Edit.min? none edits
  max := latest Edit.max? none edits
  enabled := latest Edit.enabled? false edits

/-- The draft after some edits. -/
def afterAll (d : OverrideDraft) (edits : List Edit) : OverrideDraft :=
  edits.foldl edit d

/-! ## One part of a draft -/

theorem latest_cons (sets? : Edit → Option α) (initial : α) (e : Edit) (edits : List Edit) :
    latest sets? initial (e :: edits) = latest sets? ((sets? e).getD initial) edits := by
  unfold latest
  rw [List.filterMap_cons]
  cases sets? e with
  | none => rfl
  | some value =>
    rw [List.getLast?_cons]
    rfl

/-- **A part that each edit leaves or sets is what was set last.** -/
theorem afterAll_part (part : OverrideDraft → α) (sets? : Edit → Option α)
    (hstep : ∀ d e, part (edit d e) = (sets? e).getD (part d)) (d : OverrideDraft)
    (edits : List Edit) : part (d.afterAll edits) = latest sets? (part d) edits := by
  induction edits generalizing d with
  | nil => rfl
  | cons e edits ih =>
    -- what the first edit leaves is what the others start from
    rw [latest_cons, ← hstep]
    exact ih (d.edit e)

/-! ## The draft -/

/-- **A draft that is edited from the start has what was set last.** -/
theorem afterAll_eq_ofLatest (edits : List Edit) : afterAll {} edits = ofLatest edits := by
  have hmin := afterAll_part min Edit.min? (fun _ e => by cases e <;> rfl) {} edits
  have hmax := afterAll_part max Edit.max? (fun _ e => by cases e <;> rfl) {} edits
  have henabled := afterAll_part enabled Edit.enabled? (fun _ e => by cases e <;> rfl) {} edits
  calc
    afterAll {} edits = ⟨(afterAll {} edits).min, (afterAll {} edits).max,
        (afterAll {} edits).enabled⟩ := rfl
    _ = ofLatest edits := by rw [hmin, hmax, henabled]; rfl

/-- **Building leaves no trace** in a draft. -/
theorem afterAll_filter (d : OverrideDraft) (edits : List Edit) :
    d.afterAll (edits.filter (· ≠ .build)) = d.afterAll edits := by
  induction edits generalizing d with
  | nil => rfl
  | cons e edits ih =>
    by_cases he : e = .build
    · subst he
      rw [List.filter_cons_of_neg (by simp)]
      exact ih d
    · rw [List.filter_cons_of_pos (by simpa using he)]
      exact ih (d.edit e)

/-- **Each call is answered by the draft that the calls before it have left.** -/
theorem getElem?_answers (d : OverrideDraft) (edits : List Edit) (i : Nat) :
    (d.answers edits)[i]? = edits[i]?.map (d.afterAll (edits.take i)).answer := by
  induction edits generalizing d i with
  | nil => rfl
  | cons e edits ih =>
    cases i with
    | zero => rfl
    | succ i => exact ih (d.edit e) i

theorem getElem?_answers_of_build {edits : List Edit} {i : Nat} (h : edits[i]? = some .build) :
    (answers {} edits)[i]? = some (some (ofLatest (edits.take i)).build) := by
  rw [getElem?_answers, h, Option.map_some, afterAll_eq_ofLatest]
  rfl

/-- **Every build is answered by what was set last.** Whatever is called on a draft, and however
often it has been built or has failed to: a build succeeds exactly if the bounds that were set last
are a range, and otherwise says what is wrong with them. What it builds is the override of these
bounds and the flag that was set last. And it is the answer of every draft that has seen the same
setters in the same order, with any builds between them. -/
theorem answers_by_last_set (edits : List Edit) {i : Nat} (hbuild : edits[i]? = some .build) :
    ∃ outcome, (answers {} edits)[i]? = some (some outcome) ∧
      ((∃ p, outcome = .ok p) ↔
        IsRange (latest Edit.min? none (edits.take i)) (latest Edit.max? none (edits.take i))) ∧
      (∀ p, outcome = .ok p →
        p.Decides (latest Edit.min? none (edits.take i)) (latest Edit.max? none (edits.take i))
          (latest Edit.enabled? false (edits.take i))) ∧
      (∀ error, outcome = .error error →
        BadBounds (latest Edit.min? none (edits.take i)) (latest Edit.max? none (edits.take i))
          error) ∧
      ∀ others j, others[j]? = some .build →
        (others.take j).filter (· ≠ .build) = (edits.take i).filter (· ≠ .build) →
        (answers {} others)[j]? = some (some outcome) := by
  refine ⟨_, getElem?_answers_of_build hbuild, PackageOverride.exists_make_iff,
    fun p => PackageOverride.decides_of_make, fun error => PackageOverride.make_eq_error_iff.1,
    fun others j hother hsame => ?_⟩
  rw [getElem?_answers_of_build hother, ← afterAll_eq_ofLatest, ← afterAll_filter, hsame,
    afterAll_filter, afterAll_eq_ofLatest]

/-- Calls that build three times: from a bound that is no number, from bounds the wrong way round,
and from two that leave the last version there is. -/
def mended : List Edit := [
  .setMin (some .nan), .build,
  .setMin (some (.ofSafeInt .greatest)), .setMax (some (.ofSafeInt .one)), .build,
  .setMax (some (.ofSafeInt .greatest)), .setEnabled true, .build]

/-- The same setters, and one build. -/
def straight : List Edit := [
  .setMin (some .nan), .setMin (some (.ofSafeInt .greatest)), .setMax (some (.ofSafeInt .one)),
  .setMax (some (.ofSafeInt .greatest)), .setEnabled true, .build]

theorem mended_by_last_set :
    mended[4]? = some .build ∧ mended[7]? = some .build ∧
    (∃ error, (answers {} mended)[4]? = some (some (.error error)) ∧
      BadBounds (some (.ofSafeInt .greatest)) (some (.ofSafeInt .one)) error) ∧
    ∃ p : PackageOverride, (answers {} mended)[7]? = some (some (.ok p)) ∧
      p.Decides (some (.ofSafeInt .greatest)) (some (.ofSafeInt .greatest)) true ∧
      (answers {} straight)[5]? = some (some (.ok p)) := by
  have hinverted : ¬ IsRange (some (.ofSafeInt .greatest)) (some (.ofSafeInt .one)) := by
    intro h
    have hle := h.ordered _ rfl _ rfl
    rw [Number.le_ofSafeInt] at hle
    exact absurd hle (by decide)
  have hsingle : IsRange (some (.ofSafeInt .greatest)) (some (.ofSafeInt .greatest)) :=
    (PackageOverride.mk (some .greatest) (some .greatest) true (by simp [SafeInt.le_def])).isRange
  obtain ⟨failed, hfailed, hrange, -, hbad, -⟩ := answers_by_last_set mended (i := 4) rfl
  obtain ⟨built, hbuilt, hrange', hdecides, -, hsame⟩ := answers_by_last_set mended (i := 7) rfl
  obtain ⟨p, rfl⟩ := hrange'.2 hsingle
  refine ⟨rfl, rfl, ?_, p, hbuilt, hdecides p rfl, hsame straight 5 rfl rfl⟩
  cases failed with
  | ok q => exact absurd (hrange.1 ⟨q, rfl⟩) hinverted
  | error error => exact ⟨error, hfailed, hbad error rfl⟩

end ChangeGate.OverrideDraft
