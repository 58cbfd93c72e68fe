import ChangeGate.Files.Tree
/-!
# Files read back

What was written to a file is read from it, and what had one name is read under the name that it
was given (`read_write`, `read_rename`). A file is never on the way to anything, so putting one
in its place or removing it bars no path: `KeepsDirectories` says what of a tree matters for
following paths.

Whatever a disk refuses, a call that succeeds has done what it does on a sound one, and a write that
fails has begun at most (`write_cases`).
-/

namespace ChangeGate

namespace Disk

variable (t : FileTree) (p q : FilePath)

@[simp]
theorem making_sound : sound.making t p = none := rfl

@[simp]
theorem reading_sound : sound.reading t p = none := rfl

@[simp]
theorem opening_sound : sound.opening t p = none := rfl

@[simp]
theorem filling_sound : sound.filling t p = none := rfl

@[simp]
theorem moving_sound : sound.moving t p q = none := rfl

end Disk

@[simp]
theorem unlessRefused_none {α : Type} (call : Except FileError α) :
    unlessRefused none call = call := rfl

/-- What succeeds was not refused. -/
theorem unlessRefused_ok {α : Type} {refusal : Option FileError} {call : Except FileError α} {a : α}
    (h : unlessRefused refusal call = .ok a) : call = .ok a := by
  cases refusal with
  | none => exact h
  | some e => cases h

namespace FileTree

variable {t t' : FileTree} {p : FilePath} {place : Location} {bytes : List UInt8} {disk : Disk}

/-! ## Places -/

theorem lookup_cons (place other : Location) (node : Node) (nodes : List (Location × Node)) :
    ((place, node) :: nodes).lookup other =
      if other = place then some node else nodes.lookup other := by
  rw [List.lookup_cons]
  by_cases h : other = place
  · simp [h]
  · simp [h, beq_false_of_ne h]

theorem lookup_filter_ne (nodes : List (Location × Node)) (place other : Location) :
    (nodes.filter fun e => e.1 ≠ place).lookup other =
      if other = place then none else nodes.lookup other := by
  induction nodes with
  | nil => simp
  | cons e nodes ih =>
    obtain ⟨key, node⟩ := e
    by_cases hkey : key = place
    · subst hkey
      rw [List.filter_cons_of_neg (by simp), ih, lookup_cons]
      by_cases hother : other = key <;> simp [hother]
    · rw [List.filter_cons_of_pos (by simpa using hkey), lookup_cons, lookup_cons, ih]
      by_cases hother : other = key
      · simp [hother, hkey]
      · simp [hother]

theorem node?_put (hplace : place ≠ []) (node : Node) (other : Location) :
    (t.put place node).node? other = if other = place then some node else t.node? other := by
  rw [node?, node?, put, lookup_cons, lookup_filter_ne]
  by_cases hother : other = place
  · simp [hother, hplace]
  · simp [hother]

theorem node?_remove (hplace : place ≠ []) (other : Location) :
    (t.remove place).node? other = if other = place then none else t.node? other := by
  rw [node?, node?, remove, lookup_filter_ne]
  by_cases hother : other = place
  · simp [hother, hplace]
  · simp [hother]

theorem ne_nil_of_node? (h : t.node? place ≠ some .directory) : place ≠ [] := by
  rintro rfl
  exact h rfl

/-! ## Paths -/

/-- **Every path that could be followed still can,** and leads to the same place. -/
structure KeepsDirectories (t t' : FileTree) : Prop where
  workingDirectory : t'.workingDirectory = t.workingDirectory
  directory : ∀ place, t.node? place = some .directory → t'.node? place = some .directory

theorem KeepsDirectories.trans {t'' : FileTree} (h : KeepsDirectories t t')
    (h' : KeepsDirectories t' t'') : KeepsDirectories t t'' :=
  ⟨h'.workingDirectory.trans h.workingDirectory,
    fun place hplace => h'.directory place (h.directory place hplace)⟩

theorem keepsDirectories_put (h : t.node? place ≠ some .directory) (node : Node) :
    KeepsDirectories t (t.put place node) := by
  refine ⟨rfl, fun other hother => ?_⟩
  rw [node?_put (ne_nil_of_node? h), if_neg, hother]
  rintro rfl
  exact h hother

theorem keepsDirectories_remove (h : t.node? place ≠ some .directory) :
    KeepsDirectories t (t.remove place) := by
  refine ⟨rfl, fun other hother => ?_⟩
  rw [node?_remove (ne_nil_of_node? h), if_neg, hother]
  rintro rfl
  exact h hother

theorem KeepsDirectories.follow (h : KeepsDirectories t t') {start : Location}
    {parts : List String} (hfollow : t.follow start parts = .ok place) :
    t'.follow start parts = .ok place := by
  induction parts generalizing start with
  | nil => exact hfollow
  | cons part rest ih =>
    rw [FileTree.follow] at hfollow ⊢
    split at hfollow
    · cases hfollow
    · rename_i next henter
      have henter' : t'.enter start part = .ok next := by
        rw [enter] at henter ⊢
        split at henter
        · cases henter
        · cases henter
        · rename_i hdirectory
          rw [h.directory start hdirectory]
          exact henter
      rw [henter']
      exact ih hfollow

theorem KeepsDirectories.locate (h : KeepsDirectories t t') (hlocate : t.locate p = .ok place) :
    t'.locate p = .ok place := by
  rw [FileTree.locate] at hlocate ⊢
  rw [h.workingDirectory]
  exact h.follow hlocate

/-! ## Reading -/

theorem read_of_node? (hlocate : t.locate p = .ok place)
    (hnode : t.node? place = some (.file bytes)) (htrailing : p.trailing = false) :
    t.read p = .ok bytes := by
  simp [read, look, hlocate, hnode, htrailing]

theorem read_ok (h : t.read p = .ok bytes) :
    ∃ place, t.locate p = .ok place ∧ t.node? place = some (.file bytes) := by
  replace h := unlessRefused_ok h
  split at h
  · cases h
  · cases h
  · rename_i found hlook
    cases h
    unfold look at hlook
    split at hlook
    · cases hlook
    · rename_i place hlocate
      split at hlook
      · cases hlook
      · cases hlook
      · rename_i found' hnode
        split at hlook <;> cases hlook
        exact ⟨place, hlocate, hnode⟩

theorem locateFile_ok (h : t.locateFile p = .ok place) :
    t.locate p = .ok place ∧ p.trailing = false ∧ t.node? place ≠ some .directory := by
  unfold locateFile at h
  split at h
  · cases h
  · rename_i hlocate
    split at h
    · cases h
    · rename_i hfree
      cases h
      exact ⟨hlocate, by simpa using fun h => hfree (Or.inl h), fun h => hfree (Or.inr h)⟩

/-- **What a write does.** It fails before anything is written, or breaks off, or is done. -/
theorem write_cases (t : FileTree) (p : FilePath) (bytes : List UInt8) (disk : Disk) :
    (∃ e, t.write p bytes disk = (t, .error e)) ∨
    ∃ place, t.locate p = .ok place ∧ p.trailing = false ∧ t.node? place ≠ some .directory ∧
      ((∃ written e,
          t.write p bytes disk = (t.put place (.file (bytes.take written)), .error e)) ∨
        t.write p bytes disk = (t.put place (.file bytes), .ok ())) := by
  cases hopen : unlessRefused (disk.opening t p) (t.locateFile p) with
  | error e => exact Or.inl ⟨e, by rw [write, hopen]⟩
  | ok place =>
    obtain ⟨hlocate, htrailing, hfree⟩ := locateFile_ok (unlessRefused_ok hopen)
    refine Or.inr ⟨place, hlocate, htrailing, hfree, ?_⟩
    cases hfill : disk.filling t p with
    | none => exact Or.inr (by simp only [write, hopen, hfill])
    | some brokenOff =>
      obtain ⟨written, e⟩ := brokenOff
      exact Or.inl ⟨written, e, by simp only [write, hopen, hfill]⟩

theorem write_ok (h : t.write p bytes disk = (t', .ok ())) :
    ∃ place, t.locate p = .ok place ∧ p.trailing = false ∧ t.node? place ≠ some .directory ∧
      t' = t.put place (.file bytes) := by
  rcases t.write_cases p bytes disk with ⟨e, hcase⟩ |
    ⟨place, hlocate, htrailing, hfree, ⟨written, e, hcase⟩ | hcase⟩
  · cases hcase.symm.trans h
  · cases hcase.symm.trans h
  · cases hcase.symm.trans h
    exact ⟨place, hlocate, htrailing, hfree, rfl⟩

theorem append_ok (h : t.append p bytes = .ok t') :
    ∃ place, t.locate p = .ok place ∧ p.trailing = false ∧ t.node? place ≠ some .directory ∧
      t' = t.put place (.file (t.bytesAt place ++ bytes)) := by
  unfold append at h
  split at h
  · cases h
  · rename_i place hplace
    cases h
    obtain ⟨hlocate, htrailing, hfree⟩ := locateFile_ok hplace
    exact ⟨place, hlocate, htrailing, hfree, rfl⟩

/-- **What was written is read.** -/
theorem read_write (h : t.write p bytes disk = (t', .ok ())) : t'.read p = .ok bytes := by
  obtain ⟨place, hlocate, htrailing, hfree, rfl⟩ := write_ok h
  refine read_of_node? ((keepsDirectories_put hfree _).locate hlocate) ?_ htrailing
  rw [node?_put (ne_nil_of_node? hfree), if_pos rfl]

theorem rename_ok {source target : FilePath} (h : t.rename source target disk = .ok t') :
    ∃ origin place bytes, t.locate source = .ok origin ∧ t.node? origin = some (.file bytes) ∧
      t.read source = .ok bytes ∧ t.locate target = .ok place ∧ target.trailing = false ∧
      t.node? place ≠ some .directory ∧ t' = (t.remove origin).put place (.file bytes) := by
  replace h := unlessRefused_ok h
  split at h
  · cases h
  · cases h
  rename_i origin place horigin hplace
  split at h
  · cases h
  split at h
  · cases h
  rename_i bytes hread
  obtain ⟨origin', horigin', hfile⟩ := read_ok hread
  obtain rfl : origin = origin' := Except.ok.inj (horigin.symm.trans horigin')
  split at h
  · cases h
  rename_i htrailing
  split at h
  · cases h
  rename_i hfree
  cases h
  exact ⟨origin, place, bytes, horigin, hfile, hread, hplace, by simpa using htrailing, hfree, rfl⟩

/-- **What was renamed is read under its new name.** -/
theorem read_rename {source target : FilePath} (h : t.rename source target disk = .ok t')
    (hread : t.read source = .ok bytes) : t'.read target = .ok bytes := by
  obtain ⟨origin, place, bytes', -, hfile, hread', hplace, htrailing, hfree, rfl⟩ := rename_ok h
  obtain rfl : bytes = bytes' := Except.ok.inj (hread.symm.trans hread')
  -- the old place is freed before the new one is filled, and the two may be the same
  have hremove : KeepsDirectories t (t.remove origin) :=
    keepsDirectories_remove (by rw [hfile]; simp)
  have hfree' : (t.remove origin).node? place ≠ some .directory := by
    rw [node?_remove (ne_nil_of_node? (by rw [hfile]; simp))]
    split
    · simp
    · exact hfree
  have hkeeps := hremove.trans (keepsDirectories_put hfree' (.file bytes))
  refine read_of_node? (hkeeps.locate hplace) ?_ htrailing
  rw [node?_put (ne_nil_of_node? hfree), if_pos rfl]

end FileTree

end ChangeGate
