import ChangeGate.NameMap
/-!
# Filling a map

Entries put into a map one after the other: of two with the same name the later one stays
(`get?_ofList`). Where no name comes twice, as among the entries of a map, the order does not
matter, so a map can be read off the entries that it writes (`ofList_entries`), and merging looks
into the second map first (`get?_merge`).
-/

namespace ChangeGate

open Text

variable {α β : Type}

namespace NameMap

theorem find?_append (name : String) (xs ys : List (String × α)) :
    find? name (xs ++ ys) = (find? name xs).or (find? name ys) := by
  induction xs with
  | nil => simp [find?]
  | cons e xs ih =>
    obtain ⟨k, v⟩ := e
    by_cases h : k = name
    · simp [find?, h]
    · simp [find?, h, ih]

/-- Values can be changed before or after looking. -/
theorem find?_map (f : α → β) (name : String) (entries : List (String × α)) :
    find? name (entries.map fun e => (e.1, f e.2)) = (find? name entries).map f := by
  induction entries with
  | nil => rfl
  | cons e entries ih =>
    obtain ⟨k, v⟩ := e
    by_cases h : k = name
    · simp [find?, h]
    · simp [find?, h, ih]

/-- Without a repeated name it does not matter from which end one looks. -/
theorem find?_reverse {entries : List (String × α)} (h : Sorted entries) (name : String) :
    find? name entries.reverse = find? name entries := by
  induction entries with
  | nil => rfl
  | cons e entries ih =>
    obtain ⟨k, v⟩ := e
    obtain ⟨hhead, htail⟩ := List.pairwise_cons.1 h
    rw [List.reverse_cons, find?_append, ih htail]
    by_cases hk : k = name
    · subst hk
      rw [find?_eq_none fun e he => (ne_of_precedes (hhead e he)).symm]
      simp [find?]
    · simp [find?, hk]

/-- **Of the entries put into a map the last one of a name counts,** and what the map had before
counts only for the other names. -/
theorem get?_foldl_insert (entries : List (String × α)) (m : NameMap α) (name : String) :
    (entries.foldl (fun acc e => acc.insert e.1 e.2) m).get? name =
      (find? name entries.reverse).or (m.get? name) := by
  induction entries generalizing m with
  | nil => simp [find?]
  | cons e entries ih =>
    obtain ⟨k, v⟩ := e
    rw [List.foldl_cons, ih, List.reverse_cons, find?_append, get?_insert]
    by_cases hk : k = name
    · simp [find?, hk]
    · simp [find?, hk]

theorem get?_ofList (entries : List (String × α)) (name : String) :
    (ofList entries).get? name = find? name entries.reverse := by
  rw [ofList, get?_foldl_insert, get?_empty, Option.or_none]

theorem get?_ofList_eq_none {entries : List (String × α)} {name : String}
    (h : ∀ e ∈ entries, e.1 ≠ name) : (ofList entries).get? name = none := by
  rw [get?_ofList]
  exact find?_eq_none fun e he => h e (List.mem_reverse.1 he)

/-- **Merging looks into the second map first.** -/
theorem get?_merge (m n : NameMap α) (name : String) :
    (m.merge n).get? name = (n.get? name).or (m.get? name) := by
  rw [merge, get?_foldl_insert, find?_reverse n.sorted]
  rfl

/-- What is merged into nothing is kept as it is. -/
@[simp] theorem empty_merge (m : NameMap α) : (empty : NameMap α).merge m = m :=
  ext_get? fun name => by rw [get?_merge, get?_empty, Option.or_none]

/-- **A map is what its entries make.** -/
theorem ofList_entries (m : NameMap α) : ofList m.entries = m :=
  empty_merge m

theorem get?_ofList_append (xs ys : List (String × α)) (name : String) :
    (ofList (xs ++ ys)).get? name = ((ofList ys).get? name).or ((ofList xs).get? name) := by
  rw [get?_ofList, List.reverse_append, find?_append, get?_ofList, get?_ofList]

/-- **A map with other values.** -/
def map (f : α → β) (m : NameMap α) : NameMap β :=
  ⟨m.entries.map fun e => (e.1, f e.2), by
    rw [Sorted, List.pairwise_map]
    exact m.sorted⟩

theorem get?_map (f : α → β) (m : NameMap α) (name : String) :
    (m.map f).get? name = (m.get? name).map f :=
  find?_map f name m.entries

theorem map_insert (f : α → β) (m : NameMap α) (name : String) (value : α) :
    (m.insert name value).map f = (m.map f).insert name (f value) :=
  ext_get? fun other => by
    rw [get?_map, get?_insert, get?_insert, get?_map]
    split <;> rfl

theorem map_erase (f : α → β) (m : NameMap α) (name : String) :
    (m.erase name).map f = (m.map f).erase name :=
  ext_get? fun other => by
    rw [get?_map, get?_erase, get?_erase, get?_map]
    split <;> rfl

@[simp] theorem contains_empty (name : String) : (empty : NameMap α).contains name = false := rfl

theorem contains_iff {m : NameMap α} {name : String} :
    m.contains name = true ↔ ∃ value, m.get? name = some value :=
  Option.isSome_iff_exists

theorem contains_insert (m : NameMap α) (name other : String) (value : α) :
    (m.insert name value).contains other = (decide (name = other) || m.contains other) := by
  rw [contains, get?_insert]
  by_cases h : name = other
  · simp [h]
  · simp [h, contains]

theorem contains_erase (m : NameMap α) (name other : String) :
    (m.erase name).contains other = (!decide (name = other) && m.contains other) := by
  rw [contains, get?_erase]
  by_cases h : name = other
  · simp [h]
  · simp [h, contains]

theorem contains_merge (m n : NameMap α) (name : String) :
    (m.merge n).contains name = (n.contains name || m.contains name) := by
  rw [contains, get?_merge, Option.isSome_or]
  rfl

/-- A map with a name in it is not empty. -/
theorem isEmpty_eq_false_of_contains {m : NameMap α} {name : String} (h : m.contains name = true) :
    m.isEmpty = false := by
  rw [Bool.eq_false_iff]
  intro hempty
  rw [isEmpty_iff.1 hempty, contains_empty] at h
  cases h

/-- And one that is not empty has a name in it. -/
theorem exists_contains_of_isEmpty_eq_false {m : NameMap α} (h : m.isEmpty = false) :
    ∃ name, m.contains name = true := by
  obtain ⟨entries, hsorted⟩ := m
  cases entries with
  | nil => cases h
  | cons e entries => exact ⟨e.1, contains_iff.2 ⟨e.2, get?_eq_some_iff.2 List.mem_cons_self⟩⟩

end NameMap

end ChangeGate
