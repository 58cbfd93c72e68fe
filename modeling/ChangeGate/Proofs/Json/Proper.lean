import ChangeGate.Proofs.Json.Numeral
import ChangeGate.Proofs.Json.Value
/-!
# JSON values proper

A value is `Proper` if it has a JSON text of its own: its numbers are finite, and the members of
its objects stand where an object writes them. An object always holds its members so, in whatever
order they were added (`canonical_object`), and every proper value is read back from its text
(`Proper.readable`).
-/

namespace ChangeGate.Json

/-- **A JSON value proper.** -/
inductive Proper : Json → Prop
  | null : Proper .null
  | bool (b : Bool) : Proper (.bool b)
  | num (x : Binary64) : Proper (.num (.finite x))
  | str (s : String) : Proper (.str s)
  | arr {items : List Json} : (∀ v ∈ items, Proper v) → Proper (.arr items)
  | obj {members : List (String × Json)} : Canonical (members.map Prod.fst) →
      (∀ m ∈ members, Proper m.2) → Proper (.obj members)

/-- **A proper value is read back from its text.** -/
theorem Proper.readable {v : Json} (hv : v.Proper) : v.Readable := by
  induction hv with
  | null => exact .null
  | bool b => exact .bool b
  | num x => exact .num (Number.legible_finite x)
  | str s => exact .str s
  | arr _ ih => exact .arr ih
  | obj hcanonical _ ih => exact .obj hcanonical ih

/-! ## The members of an object -/

variable {name : String} {value : Json} {members : List (String × Json)}

theorem mem_setMember {m : String × Json} (h : m ∈ setMember name value members) :
    m = (name, value) ∨ m ∈ members := by
  induction members with
  | nil => exact Or.inl (List.mem_singleton.1 h)
  | cons first rest ih =>
    obtain ⟨k, v⟩ := first
    rw [setMember] at h
    split at h
    · exact (List.mem_cons.1 h).imp_right (List.mem_cons_of_mem _)
    split at h
    · exact List.mem_cons.1 h
    · rcases List.mem_cons.1 h with rfl | h
      · exact Or.inr List.mem_cons_self
      · exact (ih h).imp_right (List.mem_cons_of_mem _)

/-- **What stands before a name stands before all that the name stands before.** -/
theorem standsBefore_eq_false {earlier later : String} (h : standsBefore name earlier = true)
    (hlater : standsBefore later earlier = false) : standsBefore later name = false := by
  unfold standsBefore at *
  cases hname : arrayIndex? name <;> cases hearlier : arrayIndex? earlier <;>
    cases hindex : arrayIndex? later <;> simp_all
  omega

theorem standsBefore_self (name : String) : standsBefore name name = false := by
  unfold standsBefore
  cases arrayIndex? name <;> simp

/-- A member added, or given a new value, leaves the members where an object writes them. -/
theorem canonical_setMember (h : Canonical (members.map Prod.fst)) (name : String) (value : Json) :
    Canonical ((setMember name value members).map Prod.fst) := by
  induction members with
  | nil => exact List.pairwise_singleton _ _
  | cons first rest ih =>
    obtain ⟨k, v⟩ := first
    rw [List.map_cons, Canonical, List.pairwise_cons] at h
    obtain ⟨hfirst, hrest⟩ := h
    rw [setMember]
    split
    · rename_i heq
      subst heq
      exact List.pairwise_cons.2 ⟨hfirst, hrest⟩
    rename_i hne
    split
    · rename_i hbefore
      refine List.pairwise_cons.2 ⟨fun later hlater => ?_, List.pairwise_cons.2 ⟨hfirst, hrest⟩⟩
      rcases List.mem_cons.1 hlater with rfl | hlater
      · exact ⟨Ne.symm hne, standsBefore_eq_false hbefore (standsBefore_self _)⟩
      · obtain ⟨-, hbehind⟩ := hfirst later hlater
        refine ⟨?_, standsBefore_eq_false hbefore hbehind⟩
        rintro rfl
        rw [hbefore] at hbehind
        cases hbehind
    · rename_i hbehind
      refine List.pairwise_cons.2 ⟨fun later hlater => ?_, ih hrest⟩
      obtain ⟨m, hm, rfl⟩ := List.mem_map.1 hlater
      rcases mem_setMember hm with rfl | hm
      · exact ⟨hne, Bool.eq_false_iff.2 hbehind⟩
      · exact hfirst m.1 (List.mem_map_of_mem hm)

/-- **Members of a proper object.** -/
def ProperMembers (members : List (String × Json)) : Prop :=
  Canonical (members.map Prod.fst) ∧ ∀ m ∈ members, m.2.Proper

theorem ProperMembers.setMember (h : ProperMembers members) (hvalue : value.Proper) :
    ProperMembers (setMember name value members) := by
  refine ⟨canonical_setMember h.1 name value, fun m hm => ?_⟩
  rcases mem_setMember hm with rfl | hm
  · exact hvalue
  · exact h.2 m hm

theorem ProperMembers.foldl {acc : List (String × Json)} (hacc : ProperMembers acc)
    (h : ∀ m ∈ members, m.2.Proper) :
    ProperMembers (members.foldl (fun acc m => Json.setMember m.1 m.2 acc) acc) := by
  induction members generalizing acc with
  | nil => exact hacc
  | cons m rest ih =>
    exact ih (hacc.setMember (h m List.mem_cons_self)) fun m' hm' =>
      h m' (List.mem_cons_of_mem m hm')

/-- **An object holds its members in the order in which it writes them,** whatever the order in
which they were added. -/
theorem proper_object (h : ∀ m ∈ members, m.2.Proper) : (object members).Proper := by
  have hmembers : ProperMembers (members.foldl (fun acc m => Json.setMember m.1 m.2 acc) []) :=
    ProperMembers.foldl ⟨.nil, by simp⟩ h
  exact .obj hmembers.1 hmembers.2

end ChangeGate.Json
