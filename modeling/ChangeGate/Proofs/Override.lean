import ChangeGate.Override.Basic
/-!
# What makes two bounds a range

An override is made of exactly the bounds that it keeps (`make_eq_ok_iff`). `BadBounds` is what is
said against other bounds, and only the first thing that is wrong is said.
-/

namespace ChangeGate

/-- **What is wrong with two bounds.** The lower one is no safe integer; or it is fine and the upper
one is none; or both are and they are the wrong way round. -/
inductive BadBounds (min max : Option Number) : BoundsError → Prop
  | lower {x : Number} : min = some x → x.toSafeInt? = none →
      BadBounds min max (.notSafe .min x)
  | upper {x : Number} : (∀ y ∈ min, y.toSafeInt?.isSome = true) → max = some x →
      x.toSafeInt? = none → BadBounds min max (.notSafe .max x)
  | inverted {a b : SafeInt} : min = some (.ofSafeInt a) → max = some (.ofSafeInt b) → b < a →
      BadBounds min max (.inverted a b)

namespace PackageOverride

variable {min max : Option Number} {enabled : Bool} {error : BoundsError} {p : PackageOverride}

/-! ## One bound -/

theorem readBound_map (bound : Bound) (n? : Option SafeInt) :
    readBound bound (n?.map .ofSafeInt) = .ok n? := by
  cases n? <;> simp [readBound]

theorem readBound_of_not_safe (bound : Bound) {x : Number} (hx : x.toSafeInt? = none) :
    readBound bound (some x) = .error (.notSafe bound x) := by
  rw [readBound, hx]

/-- A bound is absent or a safe integer, or else a number that is none. -/
theorem safe_or_not (x? : Option Number) :
    (∃ n? : Option SafeInt, x? = n?.map .ofSafeInt) ∨ ∃ x, x? = some x ∧ x.toSafeInt? = none := by
  cases x? with
  | none => exact Or.inl ⟨none, rfl⟩
  | some x =>
    cases hx : x.toSafeInt? with
    | none => exact Or.inr ⟨x, rfl, hx⟩
    | some n => exact Or.inl ⟨some n, by rw [Number.eq_ofSafeInt_of_toSafeInt? hx]; rfl⟩

theorem exists_map_of_safe {x? : Option Number} (h : ∀ x ∈ x?, x.toSafeInt?.isSome = true) :
    ∃ n? : Option SafeInt, x? = n?.map .ofSafeInt := by
  refine (safe_or_not x?).resolve_right ?_
  rintro ⟨x, rfl, hx⟩
  have hsafe := h x rfl
  rw [hx] at hsafe
  cases hsafe

theorem safe_of_map (n? : Option SafeInt) :
    ∀ x ∈ n?.map Number.ofSafeInt, x.toSafeInt?.isSome = true := by
  intro x hx
  obtain ⟨n, -, rfl⟩ := Option.map_eq_some_iff.1 hx
  rw [Number.toSafeInt?_ofSafeInt, Option.isSome_some]

/-! ## Two bounds -/

/-- An override is made again of what it keeps. -/
theorem make_map (p : PackageOverride) :
    make (p.min.map .ofSafeInt) (p.max.map .ofSafeInt) p.enabled = .ok p := by
  obtain ⟨min, max, enabled, ordered⟩ := p
  rw [make, readBound_map]
  dsimp only
  rw [readBound_map]
  cases min with
  | none => rfl
  | some a =>
    cases max with
    | none => rfl
    | some b => exact dif_pos (ordered a rfl b rfl)

/-- Of bad bounds nothing is made. -/
theorem make_of_bad (h : BadBounds min max error) : make min max enabled = .error error := by
  cases h with
  | lower hmin hx => rw [make, hmin, readBound_of_not_safe .min hx]
  | upper hmin hmax hx =>
    obtain ⟨min?, rfl⟩ := exists_map_of_safe hmin
    rw [make, readBound_map]
    dsimp only
    rw [hmax, readBound_of_not_safe .max hx]
  | @inverted a b hmin hmax hlt =>
    have hread := readBound_map .min (some a)
    have hread' := readBound_map .max (some b)
    rw [Option.map_some] at hread hread'
    rw [make, hmin, hread]
    dsimp only
    rw [hmax, hread']
    exact dif_neg (Int.not_le.2 hlt)

/-- **Bounds are those of an override, or they are bad.** -/
theorem range_or_bad (min max : Option Number) (enabled : Bool) :
    (∃ p : PackageOverride,
      min = p.min.map .ofSafeInt ∧ max = p.max.map .ofSafeInt ∧ enabled = p.enabled) ∨
    ∃ error, BadBounds min max error := by
  obtain ⟨min?, rfl⟩ | ⟨x, rfl, hx⟩ := safe_or_not min
  · obtain ⟨max?, rfl⟩ | ⟨x, rfl, hx⟩ := safe_or_not max
    · by_cases hordered : ∀ a ∈ min?, ∀ b ∈ max?, a ≤ b
      · exact Or.inl ⟨⟨min?, max?, enabled, hordered⟩, rfl, rfl, rfl⟩
      · simp only [Classical.not_forall] at hordered
        obtain ⟨a, rfl, b, rfl, hnot⟩ := hordered
        exact Or.inr ⟨_, .inverted rfl rfl (Int.not_le.1 hnot)⟩
    · exact Or.inr ⟨_, .upper (safe_of_map min?) rfl hx⟩
  · exact Or.inr ⟨_, .lower rfl hx⟩

/-- **An override is made of exactly the bounds that it keeps.** -/
theorem make_eq_ok_iff :
    make min max enabled = .ok p ↔
      min = p.min.map .ofSafeInt ∧ max = p.max.map .ofSafeInt ∧ enabled = p.enabled := by
  refine ⟨fun h => ?_, fun ⟨hmin, hmax, henabled⟩ => by rw [hmin, hmax, henabled, make_map]⟩
  obtain ⟨q, rfl, rfl, rfl⟩ | ⟨error, hbad⟩ := range_or_bad min max enabled
  · rw [make_map] at h
    obtain rfl := Except.ok.inj h
    exact ⟨rfl, rfl, rfl⟩
  · rw [make_of_bad hbad] at h
    cases h

/-- **What is said against bounds is what is wrong with them.** -/
theorem make_eq_error_iff : make min max enabled = .error error ↔ BadBounds min max error := by
  refine ⟨fun h => ?_, make_of_bad⟩
  obtain ⟨q, rfl, rfl, rfl⟩ | ⟨found, hbad⟩ := range_or_bad min max enabled
  · rw [make_map] at h
    cases h
  · rw [make_of_bad hbad] at h
    exact Except.error.inj h ▸ hbad

end PackageOverride

end ChangeGate
