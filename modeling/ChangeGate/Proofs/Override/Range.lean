import Mathlib.Data.Option.Basic
import ChangeGate.Proofs.Number.Integers
import ChangeGate.Proofs.Override
/-!
# The versions of a range

`IsRange` says of two numbers, either of which may be absent, that an override may have them as its
bounds, and `Within` says of a number that it is a version in their range. Both are about numbers
and how they compare, and neither about what an override keeps.

An override is made of its bounds exactly if they are a range (`exists_make_iff`). It decides for
the versions within them (`evaluate_eq_ofBool_iff`) and for no other number
(`evaluate_eq_undefined_iff`), and there always is such a version (`exists_covers`).
-/

namespace ChangeGate

namespace Number

/-- **A number that is a safe integer.** -/
def IsSafe (x : Number) : Prop :=
  ∃ n : SafeInt, x = .ofSafeInt n

theorem isSafe_iff {x : Number} : x.IsSafe ↔ x.toSafeInt?.isSome = true := by
  rw [Option.isSome_iff_exists]
  constructor
  · rintro ⟨n, rfl⟩
    exact ⟨n, toSafeInt?_ofSafeInt n⟩
  · rintro ⟨n, hn⟩
    exact ⟨n, eq_ofSafeInt_of_toSafeInt? hn⟩

theorem lt_ofSafeInt_eq_false_iff {a b : SafeInt} :
    (ofSafeInt a).lt (ofSafeInt b) = false ↔ b ≤ a := by
  rw [lt_ofSafeInt, decide_eq_false_iff_not]
  exact Int.not_lt

end Number

/-- **Bounds of a range:** each is a safe integer, if it is there, and if both are, the lower one is
at most the upper one. -/
structure IsRange (min max : Option Number) : Prop where
  minSafe : ∀ a ∈ min, a.IsSafe
  maxSafe : ∀ b ∈ max, b.IsSafe
  ordered : ∀ a ∈ min, ∀ b ∈ max, a.le b = true

/-- **A version within two bounds:** a safe integer that is neither below the lower one nor above
the upper one. -/
structure Within (min max : Option Number) (v : Number) : Prop where
  safe : v.IsSafe
  notBelow : ∀ a ∈ min, v.lt a = false
  notAbove : ∀ b ∈ max, b.lt v = false

theorem Decision.ofBool_ne_undefined (on : Bool) : ofBool on ≠ .undefined := by
  cases on <;> nofun

namespace PackageOverride

variable {min max : Option Number} {enabled : Bool} {p : PackageOverride} {v : Number}

/-! ## Bounds -/

theorem isRange (p : PackageOverride) :
    IsRange (p.min.map .ofSafeInt) (p.max.map .ofSafeInt) where
  minSafe x hx := Number.isSafe_iff.2 (safe_of_map p.min x hx)
  maxSafe x hx := Number.isSafe_iff.2 (safe_of_map p.max x hx)
  ordered := by
    simp only [Option.forall_mem_map, Number.le_ofSafeInt, decide_eq_true_eq]
    exact p.ordered

/-- **An override is made of bounds exactly if they are a range.** -/
theorem exists_make_iff : (∃ p, make min max enabled = .ok p) ↔ IsRange min max := by
  constructor
  · rintro ⟨p, hp⟩
    obtain ⟨rfl, rfl, -⟩ := make_eq_ok_iff.1 hp
    exact p.isRange
  · intro h
    obtain ⟨min?, rfl⟩ := exists_map_of_safe fun x hx => Number.isSafe_iff.1 (h.minSafe x hx)
    obtain ⟨max?, rfl⟩ := exists_map_of_safe fun x hx => Number.isSafe_iff.1 (h.maxSafe x hx)
    have hordered := h.ordered
    simp only [Option.forall_mem_map, Number.le_ofSafeInt, decide_eq_true_eq] at hordered
    exact ⟨_, make_map ⟨min?, max?, enabled, hordered⟩⟩

/-! ## Versions -/

theorem covers_iff {n : SafeInt} :
    p.covers n = true ↔ (∀ a ∈ p.min, a ≤ n) ∧ ∀ b ∈ p.max, n ≤ b := by
  simp [covers, Option.all_eq_true]

/-- **There is a version in every range.** A bound that is there is one itself, as the two are in
order, and where none is there any version will do. -/
theorem exists_covers (p : PackageOverride) : ∃ n, p.covers n = true := by
  obtain ⟨min, max, enabled, ordered⟩ := p
  simp only [covers_iff]
  cases min with
  | some a =>
    refine ⟨a, fun a' ha' => ?_, ordered a rfl⟩
    cases ha'
    exact Int.le_refl _
  | none =>
    cases max with
    | some b =>
      refine ⟨b, by simp, fun b' hb' => ?_⟩
      cases hb'
      exact Int.le_refl _
    | none => exact ⟨.one, by simp, by simp⟩

/-- An integer is within the bounds as a number if it is so itself. -/
theorem within_ofSafeInt_iff {n : SafeInt} :
    Within (p.min.map .ofSafeInt) (p.max.map .ofSafeInt) (.ofSafeInt n) ↔ p.covers n = true := by
  rw [covers_iff]
  constructor
  · rintro ⟨-, hmin, hmax⟩
    simp only [Option.forall_mem_map, Number.lt_ofSafeInt_eq_false_iff] at hmin hmax
    exact ⟨hmin, hmax⟩
  · rintro ⟨hmin, hmax⟩
    refine ⟨⟨n, rfl⟩, ?_, ?_⟩ <;>
      simpa only [Option.forall_mem_map, Number.lt_ofSafeInt_eq_false_iff]

theorem evaluate_of_within (h : Within (p.min.map .ofSafeInt) (p.max.map .ofSafeInt) v) :
    p.evaluate v = .ofBool p.enabled := by
  obtain ⟨n, rfl⟩ := h.safe
  rw [evaluate, Number.toSafeInt?_ofSafeInt]
  exact if_pos (within_ofSafeInt_iff.1 h)

theorem evaluate_of_not_within (h : ¬ Within (p.min.map .ofSafeInt) (p.max.map .ofSafeInt) v) :
    p.evaluate v = .undefined := by
  unfold evaluate
  cases hv : v.toSafeInt? with
  | none => rfl
  | some n =>
    rw [Number.eq_ofSafeInt_of_toSafeInt? hv, within_ofSafeInt_iff] at h
    exact if_neg h

/-- **An override decides for the versions within its bounds.** -/
theorem evaluate_eq_ofBool_iff :
    p.evaluate v = .ofBool p.enabled ↔
      Within (p.min.map .ofSafeInt) (p.max.map .ofSafeInt) v := by
  refine ⟨fun h => Classical.byContradiction fun hnot => ?_, evaluate_of_within⟩
  rw [evaluate_of_not_within hnot] at h
  exact Decision.ofBool_ne_undefined _ h.symm

/-- **It decides for no other number.** -/
theorem evaluate_eq_undefined_iff :
    p.evaluate v = .undefined ↔ ¬ Within (p.min.map .ofSafeInt) (p.max.map .ofSafeInt) v := by
  refine ⟨fun h hwithin => ?_, evaluate_of_not_within⟩
  rw [evaluate_of_within hwithin] at h
  exact Decision.ofBool_ne_undefined _ h

/-! ## Overrides of a range -/

/-- **The override of two bounds and a flag.** It keeps these and decides as they say: by the flag
for every version within the bounds, and not at all for any other number. Some version it does
decide for. -/
structure Decides (p : PackageOverride) (min max : Option Number) (enabled : Bool) : Prop where
  lower : p.min.map .ofSafeInt = min
  upper : p.max.map .ofSafeInt = max
  flag : p.enabled = enabled
  inside : ∀ v, p.evaluate v = .ofBool enabled ↔ Within min max v
  outside : ∀ v, p.evaluate v = .undefined ↔ ¬ Within min max v
  somewhere : ∃ v : Number, v.IsSafe ∧ p.evaluate v ≠ .undefined

/-- What is made of bounds and a flag is their override. -/
theorem decides_of_make (h : make min max enabled = .ok p) : p.Decides min max enabled := by
  obtain ⟨rfl, rfl, rfl⟩ := make_eq_ok_iff.1 h
  obtain ⟨n, hn⟩ := p.exists_covers
  refine ⟨rfl, rfl, rfl, fun v => evaluate_eq_ofBool_iff, fun v => evaluate_eq_undefined_iff,
    .ofSafeInt n, ⟨n, rfl⟩, fun hnot => ?_⟩
  exact evaluate_eq_undefined_iff.1 hnot (within_ofSafeInt_iff.2 hn)

end PackageOverride

end ChangeGate
