import ChangeGate.Text.Units
/-!
# Maps keyed by names

A `NameMap α` holds at most one value for each name and keeps its entries in the order of names.
Two maps with the same look-ups are therefore equal (`NameMap.ext_get?`), and whatever is
written from a map is written in one way only, no matter in which order it was filled.

The view of a map is `get?`: `get?_insert`, `get?_erase` and `get?_empty` say what every
operation does to it.
-/

namespace ChangeGate

open Text

variable {α β : Type}

namespace NameMap

/-- Entries in the order of names, no name twice. -/
def Sorted (entries : List (String × α)) : Prop :=
  entries.Pairwise fun a b => Precedes a.1 b.1

/-- The value of a name in a list of entries. -/
def find? (name : String) : List (String × α) → Option α
  | [] => none
  | (k, v) :: rest => if k = name then some v else find? name rest

/-- Puts an entry in its place, instead of one of the same name if there is one. -/
def insertEntry (name : String) (value : α) : List (String × α) → List (String × α)
  | [] => [(name, value)]
  | (k, v) :: rest =>
    if Precedes name k then (name, value) :: (k, v) :: rest
    else if name = k then (name, value) :: rest
    else (k, v) :: insertEntry name value rest

/-- Drops the entry of a name. -/
def eraseEntry (name : String) : List (String × α) → List (String × α)
  | [] => []
  | (k, v) :: rest => if k = name then rest else (k, v) :: eraseEntry name rest

theorem mem_insertEntry {name : String} {value : α} {e : String × α}
    {entries : List (String × α)} (h : e ∈ insertEntry name value entries) :
    e = (name, value) ∨ e ∈ entries := by
  induction entries with
  | nil => simpa [insertEntry] using h
  | cons hd tl ih =>
    obtain ⟨k, v⟩ := hd
    rw [insertEntry] at h
    split at h
    · simpa using h
    · split at h
      · rcases List.mem_cons.1 h with h | h
        · exact Or.inl h
        · exact Or.inr (List.mem_cons_of_mem _ h)
      · rcases List.mem_cons.1 h with h | h
        · exact Or.inr (h ▸ List.mem_cons_self)
        · exact (ih h).imp_right (List.mem_cons_of_mem _)

theorem sublist_eraseEntry (name : String) (entries : List (String × α)) :
    (eraseEntry name entries).Sublist entries := by
  induction entries with
  | nil => exact List.Sublist.refl _
  | cons hd tl ih =>
    obtain ⟨k, v⟩ := hd
    rw [eraseEntry]
    split
    · exact List.sublist_cons_self _ _
    · exact ih.cons_cons _

theorem sorted_insertEntry (name : String) (value : α) {entries : List (String × α)}
    (h : Sorted entries) : Sorted (insertEntry name value entries) := by
  induction entries with
  | nil => simp [insertEntry, Sorted]
  | cons hd tl ih =>
    obtain ⟨k, v⟩ := hd
    obtain ⟨hhead, htail⟩ := List.pairwise_cons.1 h
    rw [insertEntry]
    split
    · rename_i hlt
      refine List.pairwise_cons.2 ⟨fun e he => ?_, h⟩
      rcases List.mem_cons.1 he with rfl | he
      · exact hlt
      · exact precedes_trans hlt (hhead e he)
    · rename_i hnot
      split
      · rename_i heq
        subst heq
        exact List.pairwise_cons.2 ⟨hhead, htail⟩
      · rename_i hne
        refine List.pairwise_cons.2 ⟨fun e he => ?_, ih htail⟩
        rcases mem_insertEntry he with rfl | he
        · exact ((precedes_trichotomy name k).resolve_left hnot).resolve_left hne
        · exact hhead e he

theorem sorted_eraseEntry (name : String) {entries : List (String × α)} (h : Sorted entries) :
    Sorted (eraseEntry name entries) :=
  h.sublist (sublist_eraseEntry name entries)

theorem find?_insertEntry (name other : String) (value : α) (entries : List (String × α)) :
    find? other (insertEntry name value entries) =
      if name = other then some value else find? other entries := by
  induction entries with
  | nil => simp [insertEntry, find?]
  | cons hd tl ih =>
    obtain ⟨k, v⟩ := hd
    rw [insertEntry]
    split
    · simp [find?]
    · split
      · rename_i heq
        subst heq
        by_cases h : name = other <;> simp [find?, h]
      · rename_i hne
        by_cases h : name = other
        · subst h
          simp [find?, Ne.symm hne, ih]
        · simp [find?, h, ih]

theorem find?_eq_none {name : String} {entries : List (String × α)}
    (h : ∀ e ∈ entries, e.1 ≠ name) : find? name entries = none := by
  induction entries with
  | nil => rfl
  | cons hd tl ih =>
    obtain ⟨k, v⟩ := hd
    have hk : k ≠ name := h _ List.mem_cons_self
    simp [find?, hk, ih fun e he => h e (List.mem_cons_of_mem _ he)]

theorem find?_eraseEntry {name other : String} {entries : List (String × α)}
    (h : Sorted entries) :
    find? other (eraseEntry name entries) = if name = other then none else find? other entries := by
  induction entries with
  | nil => simp [eraseEntry, find?]
  | cons hd tl ih =>
    obtain ⟨k, v⟩ := hd
    obtain ⟨hhead, htail⟩ := List.pairwise_cons.1 h
    rw [eraseEntry]
    split
    · rename_i heq
      subst heq
      by_cases h' : k = other
      · subst h'
        simp [find?_eq_none fun e he => (ne_of_precedes (hhead e he)).symm]
      · simp [find?, h']
    · rename_i hne
      by_cases h' : name = other
      · subst h'
        simp [find?, hne, ih htail]
      · simp [find?, h', ih htail]

theorem find?_eq_some_iff {name : String} {value : α} {entries : List (String × α)}
    (h : Sorted entries) : find? name entries = some value ↔ (name, value) ∈ entries := by
  induction entries with
  | nil => simp [find?]
  | cons hd tl ih =>
    obtain ⟨k, v⟩ := hd
    obtain ⟨hhead, htail⟩ := List.pairwise_cons.1 h
    by_cases hk : k = name
    · subst hk
      simp only [find?, if_true, Option.some.injEq, List.mem_cons, Prod.mk.injEq, true_and]
      refine ⟨fun heq => Or.inl heq.symm, fun hor => hor.elim Eq.symm fun hmem => ?_⟩
      exact absurd (hhead _ hmem) (precedes_irrefl k)
    · simp [find?, hk, ih htail, Ne.symm hk]

/-- A name before the first one of a sorted list is not in it. -/
theorem find?_eq_none_of_precedes {name k : String} {v : α} {entries : List (String × α)}
    (h : Sorted ((k, v) :: entries)) (hlt : Precedes name k) :
    find? name ((k, v) :: entries) = none :=
  find?_eq_none fun e he => by
    rcases List.mem_cons.1 he with rfl | he
    · exact (ne_of_precedes hlt).symm
    · exact (ne_of_precedes (precedes_trans hlt ((List.pairwise_cons.1 h).1 e he))).symm

theorem eq_of_find?_eq {xs ys : List (String × α)} (hx : Sorted xs) (hy : Sorted ys)
    (h : ∀ name, find? name xs = find? name ys) : xs = ys := by
  induction xs generalizing ys with
  | nil =>
    cases ys with
    | nil => rfl
    | cons hd tl => have := h hd.1; simp [find?] at this
  | cons hd tl ih =>
    obtain ⟨k, v⟩ := hd
    obtain ⟨hheadx, htailx⟩ := List.pairwise_cons.1 hx
    cases ys with
    | nil => have := h k; simp [find?] at this
    | cons hd' tl' =>
      obtain ⟨k', v'⟩ := hd'
      obtain ⟨hheady, htaily⟩ := List.pairwise_cons.1 hy
      have hk : find? k ((k', v') :: tl') = some v := by rw [← h k]; simp [find?]
      have hk' : find? k' ((k, v) :: tl) = some v' := by rw [h k']; simp [find?]
      have hkey : k = k' := by
        rcases precedes_trichotomy k k' with hlt | heq | hlt
        · rw [find?_eq_none_of_precedes hy hlt] at hk
          cases hk
        · exact heq
        · rw [find?_eq_none_of_precedes hx hlt] at hk'
          cases hk'
      subst hkey
      have hval : v = v' := by have := h k; simpa [find?] using this
      subst hval
      refine congrArg _ (ih htailx htaily fun name => ?_)
      by_cases hk : k = name
      · subst hk
        rw [find?_eq_none fun e he => (ne_of_precedes (hheadx e he)).symm,
          find?_eq_none fun e he => (ne_of_precedes (hheady e he)).symm]
      · have := h name
        simpa [find?, hk] using this

end NameMap

/-- **A map from names to values.** The entries stand in the order of names. -/
structure NameMap (α : Type) where
  entries : List (String × α)
  sorted : NameMap.Sorted entries
deriving DecidableEq

namespace NameMap

def empty : NameMap α := ⟨[], List.Pairwise.nil⟩

instance : EmptyCollection (NameMap α) := ⟨empty⟩

instance : Inhabited (NameMap α) := ⟨empty⟩

def get? (m : NameMap α) (name : String) : Option α :=
  find? name m.entries

def contains (m : NameMap α) (name : String) : Bool :=
  (m.get? name).isSome

/-- Gives `name` the value, instead of the one it has. -/
def insert (m : NameMap α) (name : String) (value : α) : NameMap α :=
  ⟨insertEntry name value m.entries, sorted_insertEntry name value m.sorted⟩

def erase (m : NameMap α) (name : String) : NameMap α :=
  ⟨eraseEntry name m.entries, sorted_eraseEntry name m.sorted⟩

def isEmpty (m : NameMap α) : Bool :=
  m.entries.isEmpty

/-- The names that have a value, in order. -/
def keys (m : NameMap α) : List String :=
  m.entries.map (·.1)

/-- **All entries of `other` into `m`.** Where both have a name, `other` wins. -/
def merge (m other : NameMap α) : NameMap α :=
  other.entries.foldl (fun acc e => acc.insert e.1 e.2) m

/-- The map of a list of entries, of which a later one of the same name wins. -/
def ofList (entries : List (String × α)) : NameMap α :=
  entries.foldl (fun acc e => acc.insert e.1 e.2) empty

/-! ## Look-ups -/

@[simp] theorem get?_empty (name : String) : (empty : NameMap α).get? name = none := rfl

theorem get?_insert (m : NameMap α) (name other : String) (value : α) :
    (m.insert name value).get? other = if name = other then some value else m.get? other :=
  find?_insertEntry name other value m.entries

@[simp] theorem get?_insert_self (m : NameMap α) (name : String) (value : α) :
    (m.insert name value).get? name = some value := by
  simp [get?_insert]

theorem get?_insert_of_ne (m : NameMap α) {name other : String} (value : α) (h : name ≠ other) :
    (m.insert name value).get? other = m.get? other := by
  simp [get?_insert, h]

theorem get?_erase (m : NameMap α) (name other : String) :
    (m.erase name).get? other = if name = other then none else m.get? other :=
  find?_eraseEntry m.sorted

@[simp] theorem get?_erase_self (m : NameMap α) (name : String) :
    (m.erase name).get? name = none := by
  simp [get?_erase]

theorem get?_erase_of_ne (m : NameMap α) {name other : String} (h : name ≠ other) :
    (m.erase name).get? other = m.get? other := by
  simp [get?_erase, h]

theorem get?_eq_some_iff {m : NameMap α} {name : String} {value : α} :
    m.get? name = some value ↔ (name, value) ∈ m.entries :=
  find?_eq_some_iff m.sorted

/-- **Two maps with the same look-ups are one.** -/
theorem ext_get? {m n : NameMap α} (h : ∀ name, m.get? name = n.get? name) : m = n := by
  obtain ⟨xs, hx⟩ := m
  obtain ⟨ys, hy⟩ := n
  have := eq_of_find?_eq hx hy h
  subst this
  rfl

theorem isEmpty_iff {m : NameMap α} : m.isEmpty = true ↔ m = empty := by
  obtain ⟨xs, hx⟩ := m
  cases xs with
  | nil => simp [isEmpty, empty]
  | cons e es => exact ⟨fun h => by simp [isEmpty] at h, fun h => by cases congrArg entries h⟩

theorem eq_empty_iff {m : NameMap α} : m = empty ↔ ∀ name, m.get? name = none :=
  ⟨fun h name => by rw [h]; rfl, fun h => ext_get? h⟩

end NameMap

end ChangeGate
