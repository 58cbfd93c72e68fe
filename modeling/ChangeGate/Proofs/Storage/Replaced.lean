import ChangeGate.Proofs.Files.Made
import ChangeGate.Storage.Basic
/-!
# A state file is replaced or spared

A write to a state file has three steps. Each of them may fail when the ones before it have taken
effect, or be refused by the disk, and the second one may break off part-way (`writeText_cases`). If
one fails, all that was there is as it was, the state file itself above all, but for the file beside
it, which may hold any beginning of the text (`Spared`). If none fails, the state file has the new
text, and there is no file beside it any more (`Replaced`). In either case directories may have been
made on the way.
-/

namespace ChangeGate

open Text

/-! ## The path beside a file -/

namespace FilePath

theorem absolute_withSuffix (p : FilePath) (suffix : String) :
    (p.withSuffix suffix).absolute = p.absolute := by
  unfold withSuffix
  split
  · rfl
  · split <;> rfl

theorem parts_withSuffix (p : FilePath) (suffix : String) : (p.withSuffix suffix).parts ≠ [] := by
  unfold withSuffix
  split
  · simp
  · split <;> simp

end FilePath

namespace FileTree

variable {t : FileTree} {p : FilePath} {beside : Location} {suffix : String}

/-- A name that is no dots leads down. -/
theorem enter_name {mid place : Location} {name : String} (hdot : name ≠ ".") (hdots : name ≠ "..")
    (h : t.enter mid name = .ok place) :
    t.node? mid = some .directory ∧ place = mid ++ [name] := by
  obtain ⟨hdirectory, rfl⟩ := enter_ok h
  exact ⟨hdirectory, by rw [if_neg hdot, if_neg hdots]⟩

/-- A name with a long ending is no dots, and not the name itself. -/
theorem append_plain (hsuffix : 3 ≤ suffix.length) (name : String) :
    name ++ suffix ≠ "." ∧ name ++ suffix ≠ ".." ∧ name ≠ name ++ suffix := by
  have hlong : name.length + 3 ≤ (name ++ suffix).length := by
    rw [String.length_append]
    omega
  have hone : ".".length = 1 := by decide
  have htwo : "..".length = 2 := by decide
  refine ⟨fun heq => ?_, fun heq => ?_, fun heq => ?_⟩
  · rw [heq, hone] at hlong
    omega
  · rw [heq, htwo] at hlong
    omega
  · rw [← heq] at hlong
    omega

/-- **The path with an ending** leads to another place than the path, which leads somewhere too. -/
theorem locate_withSuffix (hsuffix : 3 ≤ suffix.length)
    (h : t.locate (p.withSuffix suffix) = .ok beside) :
    ∃ place, t.locate p = .ok place ∧ place ≠ beside := by
  obtain ⟨hdot, hdots, -⟩ := append_plain hsuffix ""
  rw [String.empty_append] at hdot hdots
  unfold FilePath.withSuffix at h
  split at h
  · obtain ⟨mid, hmid, henter⟩ := follow_concat_ok.1 h
    obtain ⟨-, rfl⟩ := enter_name hdot hdots henter
    exact ⟨mid, hmid, by simp⟩
  split at h
  · rename_i last hlast
    obtain ⟨mid, hmid, henter⟩ := follow_concat_ok.1 h
    obtain ⟨hdot', hdots', hne⟩ := append_plain hsuffix last
    obtain ⟨hdirectory, rfl⟩ := enter_name hdot' hdots' henter
    have hparts : p.parts = p.parts.dropLast ++ [last] := by
      obtain ⟨above, habove⟩ := List.getLast?_eq_some_iff.1 hlast
      rw [habove, List.dropLast_concat]
    have hfollow : t.locate p = t.enter mid last := by
      rw [locate, hparts, follow_concat]
      simp only [hmid]
    rw [hfollow, enter, hdirectory]
    dsimp only
    split
    · exact ⟨mid, rfl, by simp⟩
    split
    · refine ⟨mid.dropLast, rfl, fun heq => ?_⟩
      have hlength := congrArg List.length heq
      rw [List.length_dropLast, List.length_append, List.length_singleton] at hlength
      omega
    · exact ⟨mid ++ [last], rfl, by simpa using hne⟩
  · rename_i hnone
    have hparts : p.parts = [] := List.getLast?_eq_none_iff.1 hnone
    obtain ⟨next, henter, hnext⟩ := follow_cons_ok.1 h
    obtain rfl : next = beside := Except.ok.inj hnext
    have hplain : (if p.absolute then suffix else "." ++ suffix) ≠ "." ∧
        (if p.absolute then suffix else "." ++ suffix) ≠ ".." := by
      split
      · exact ⟨hdot, hdots⟩
      · exact ⟨(append_plain hsuffix ".").1, (append_plain hsuffix ".").2.1⟩
    obtain ⟨-, rfl⟩ := enter_name hplain.1 hplain.2 henter
    exact ⟨_, by rw [locate, hparts, follow], by simp⟩

/-- **A file that was written at one place and moved to another.** -/
def moved (t : FileTree) (beside place : Location) (bytes : List UInt8) : FileTree :=
  ((t.put beside (.file bytes)).remove beside).put place (.file bytes)

section Moved

variable {place : Location} (hbeside : t.node? beside ≠ some .directory)
  (hplace : t.node? place ≠ some .directory) (bytes : List UInt8)

include hbeside hplace

theorem node?_moved (other : Location) : (t.moved beside place bytes).node? other =
    if other = place then some (.file bytes)
    else if other = beside then none else t.node? other := by
  rw [moved, node?_put (ne_nil_of_node? hplace), node?_remove (ne_nil_of_node? hbeside),
    node?_put (ne_nil_of_node? hbeside)]
  split
  · rfl
  · split <;> rfl

theorem keepsDirectories_moved : KeepsDirectories t (t.moved beside place bytes) := by
  refine ⟨rfl, fun other hother => ?_⟩
  rw [node?_moved hbeside hplace, if_neg, if_neg, hother]
  · rintro rfl
    exact hbeside hother
  · rintro rfl
    exact hplace hother

theorem Closed.moved (h : t.Closed) (habove : t.node? place.dropLast = some .directory) :
    (t.moved beside place bytes).Closed := by
  intro other part hthere
  refine (keepsDirectories_moved hbeside hplace bytes).directory other ?_
  rw [node?_moved hbeside hplace] at hthere
  split at hthere
  · rename_i heq
    rwa [← heq, List.dropLast_concat] at habove
  split at hthere
  · exact absurd rfl hthere
  · exact h other part hthere

end Moved

/-- **To rename what was written beside a file** moves it to the place of the file. -/
theorem rename_put {source target : FilePath} {place : Location} {bytes : List UInt8}
    {renamed : FileTree} {disk : Disk} (hbeside : t.locate source = .ok beside)
    (hfree : t.node? beside ≠ some .directory) (hplace : t.locate target = .ok place)
    (hne : place ≠ beside)
    (h : (t.put beside (.file bytes)).rename source target disk = .ok renamed) :
    target.trailing = false ∧ t.node? place ≠ some .directory ∧
      renamed = t.moved beside place bytes := by
  obtain ⟨origin, place', bytes', horigin, hfile, -, hplace', htrailing, hfree', rfl⟩ := rename_ok h
  have hkeeps := keepsDirectories_put hfree (.file bytes)
  have hput := node?_put (t := t) (ne_nil_of_node? hfree) (.file bytes)
  obtain rfl : beside = origin := Except.ok.inj ((hkeeps.locate hbeside).symm.trans horigin)
  obtain rfl : place = place' := Except.ok.inj ((hkeeps.locate hplace).symm.trans hplace')
  rw [hput, if_pos rfl] at hfile
  rw [hput, if_neg hne] at hfree'
  cases hfile
  exact ⟨htrailing, hfree', rfl⟩

/-- **What a path names stays** if its place does, with what is there. -/
theorem look_of_kept {t' : FileTree} {node : Node} (h : t.look p = .ok node)
    (hkept : ∀ place found, t.locate p = .ok place → t.node? place = some found →
      t'.locate p = .ok place ∧ t'.node? place = some found) : t'.look p = .ok node := by
  unfold look at h ⊢
  cases hlocate : t.locate p with
  | error e =>
    rw [hlocate] at h
    cases h
  | ok place =>
    rw [hlocate] at h
    dsimp only at h
    cases hnode : t.node? place with
    | none =>
      rw [hnode] at h
      cases h
    | some found =>
      obtain ⟨hlocate', hnode'⟩ := hkept place found hlocate hnode
      rw [hnode] at h
      rw [hlocate']
      dsimp only
      rw [hnode']
      exact h

end FileTree

namespace DirectoryStorage

variable {d d' : DirectoryStorage} {filename text : String} {place beside : Location} {disk : Disk}

/-- The path under which a state file is written before it takes its own. -/
def besidePath (d : DirectoryStorage) (filename : String) : FilePath :=
  (d.statePath filename).withSuffix ".tmp"

/-- The tree with the directory for state made, as far as that goes. -/
def prepared (d : DirectoryStorage) (disk : Disk) : FileTree :=
  (d.tree.makeDirectories d.stateDirectory disk).1

theorem prepared_made (d : DirectoryStorage) (disk : Disk) :
    FileTree.Made d.stateDirectory d.tree (d.prepared disk) :=
  FileTree.makeDirectories_made (FilePath.parts_join (by decide)) d.tree disk

/-- **What a write does.** It fails before anything is written, or when some of the file beside has
been or all of it, or it is done. -/
theorem writeText_cases (d : DirectoryStorage) (filename text : String) (disk : Disk) :
    (∃ e, d.writeText filename text disk = ({ d with tree := d.prepared disk }, .error e)) ∨
    ∃ beside place, (d.prepared disk).locate (d.besidePath filename) = .ok beside ∧
      (d.prepared disk).node? beside ≠ some .directory ∧
      (d.prepared disk).locate (d.statePath filename) = .ok place ∧ place ≠ beside ∧
      ((∃ written e, d.writeText filename text disk =
          ({ d with tree :=
              (d.prepared disk).put beside (.file ((Utf8.encode text).take written)) },
            .error e)) ∨
        (d.statePath filename).trailing = false ∧
          (d.prepared disk).node? place ≠ some .directory ∧
          d.writeText filename text disk =
            ({ d with tree := (d.prepared disk).moved beside place (Utf8.encode text) },
              .ok ())) := by
  have hmade : d.prepared disk = (d.tree.makeDirectories d.stateDirectory disk).1 := rfl
  generalize hresult : d.writeText filename text disk = result
  unfold writeText at hresult
  dsimp only at hresult
  split at hresult
  · rename_i made e hfailed
    rw [hfailed] at hmade
    exact Or.inl ⟨e, by rw [← hresult, hmade]⟩
  rename_i made hdone
  rw [hdone] at hmade
  subst hmade
  rcases (d.prepared disk).write_cases ((d.statePath filename).withSuffix ".tmp")
    (Utf8.encode text) disk with ⟨e, hwrite⟩ | ⟨beside, hbeside, -, hfree, hrest⟩
  · rw [hwrite] at hresult
    exact Or.inl ⟨e, hresult.symm⟩
  obtain ⟨place, hplace, hne⟩ := FileTree.locate_withSuffix (by decide) hbeside
  refine Or.inr ⟨beside, place, hbeside, hfree, hplace, hne, ?_⟩
  rcases hrest with ⟨written, e, hwrite⟩ | hwrite
  · rw [hwrite] at hresult
    exact Or.inl ⟨written, e, hresult.symm⟩
  rw [hwrite] at hresult
  dsimp only at hresult
  split at hresult
  · rename_i e _
    refine Or.inl ⟨(Utf8.encode text).length, e, ?_⟩
    rw [List.take_length]
    exact hresult.symm
  · rename_i renamed hrename
    obtain ⟨htrailing, hfree', rfl⟩ := FileTree.rename_put hbeside hfree hplace hne hrename
    exact Or.inr ⟨htrailing, hfree', hresult.symm⟩

/-! ## The frame of a write -/

/-- **A directory that was made on the way to the one for state,** where there was nothing. -/
def MadeAt (d d' : DirectoryStorage) (place : Location) : Prop :=
  d.tree.node? place = none ∧ d'.tree.node? place = some .directory ∧
    ∃ q ∈ d.stateDirectory.ancestors, d'.tree.locate q = .ok place

/-- **All is as it was,** but for directories that were made and for the file beside the state file,
which may hold any beginning of the text that was to be written. -/
structure Spared (d d' : DirectoryStorage) (filename text : String) : Prop where
  home : d'.home = d.home
  directories : FileTree.KeepsDirectories d.tree d'.tree
  node : ∀ place, d'.tree.node? place = d.tree.node? place ∨ d.MadeAt d' place ∨
    d.tree.node? place ≠ some .directory ∧
      d'.tree.locate (d.besidePath filename) = .ok place ∧
      ∃ written, d'.tree.node? place = some (.file ((Utf8.encode text).take written))
  content : ∀ node, d.tree.look (d.statePath filename) = .ok node →
    d'.tree.look (d.statePath filename) = .ok node

/-- **The state file has the text,** and there is nothing beside it. All else is as it was, but for
directories that were made. -/
structure Replaced (d d' : DirectoryStorage) (filename text : String) : Prop where
  home : d'.home = d.home
  directories : FileTree.KeepsDirectories d.tree d'.tree
  node : ∀ place, d'.tree.node? place = d.tree.node? place ∨ d.MadeAt d' place ∨
    d'.tree.locate (d.statePath filename) = .ok place ∨
    d'.tree.locate (d.besidePath filename) = .ok place
  content : d'.tree.read (d.statePath filename) = .ok (Utf8.encode text)
  beside : d'.tree.look (d.besidePath filename) = .error .notFound

/-- What was made is there as long as directories are kept. -/
theorem prepared_node {t : FileTree} (hkeeps : FileTree.KeepsDirectories (d.prepared disk) t)
    (hsame : t.node? place = (d.prepared disk).node? place) :
    t.node? place = d.tree.node? place ∨ d.MadeAt { d with tree := t } place := by
  rcases (d.prepared_made disk).node place with hbefore | ⟨hnone, hthere, q, hq, hlocate⟩
  · exact Or.inl (hsame.trans hbefore)
  · exact Or.inr ⟨hnone, hsame.trans hthere, q, hq, hkeeps.locate hlocate⟩

/-- The state file is not the file beside it, nor was there nothing under its name: so what it
holds is spared with all the rest. -/
theorem Spared.of_node {t : FileTree} (hkeeps : FileTree.KeepsDirectories d.tree t)
    (hnode : ∀ place, t.node? place = d.tree.node? place ∨ d.MadeAt { d with tree := t } place ∨
      d.tree.node? place ≠ some .directory ∧ t.locate (d.besidePath filename) = .ok place ∧
        ∃ written, t.node? place = some (.file ((Utf8.encode text).take written))) :
    d.Spared { d with tree := t } filename text where
  home := rfl
  directories := hkeeps
  node := hnode
  content node hlook := by
    refine FileTree.look_of_kept hlook fun place found hlocate hfound => ?_
    have hlocate' := hkeeps.locate hlocate
    refine ⟨hlocate', ?_⟩
    rcases hnode place with hsame | ⟨hnone, -⟩ | ⟨-, hbeside, -⟩
    · rw [hsame, hfound]
    · rw [hfound] at hnone
      cases hnone
    · obtain ⟨place', hplace', hne⟩ := FileTree.locate_withSuffix (by decide) hbeside
      exact absurd (Except.ok.inj (hplace'.symm.trans hlocate')) hne

/-- **A write that fails spares what there was.** -/
theorem spared_of_writeText {e : FileError}
    (h : d.writeText filename text disk = (d', .error e)) : d.Spared d' filename text := by
  have hmade := (d.prepared_made disk).keepsDirectories
  rcases d.writeText_cases filename text disk with ⟨e', hcase⟩ |
    ⟨beside, place, hbeside, hfree, -, -, ⟨written, e', hcase⟩ | ⟨-, -, hcase⟩⟩
  · cases hcase.symm.trans h
    exact .of_node hmade fun place =>
      (prepared_node ⟨rfl, fun _ => id⟩ rfl).imp_right Or.inl
  · cases hcase.symm.trans h
    have hkeeps := FileTree.keepsDirectories_put hfree (.file ((Utf8.encode text).take written))
    have hput := FileTree.node?_put (t := d.prepared disk) (FileTree.ne_nil_of_node? hfree)
      (.file ((Utf8.encode text).take written))
    refine .of_node (hmade.trans hkeeps) fun other => ?_
    by_cases hother : other = beside
    · subst hother
      refine Or.inr (Or.inr ⟨fun hdirectory => hfree (hmade.directory _ hdirectory),
        hkeeps.locate hbeside, written, ?_⟩)
      rw [hput, if_pos rfl]
    · refine (prepared_node hkeeps ?_).imp_right Or.inl
      rw [hput, if_neg hother]
  · cases hcase.symm.trans h

/-- **A write that succeeds replaces the state file.** -/
theorem replaced_of_writeText (h : d.writeText filename text disk = (d', .ok ())) :
    d.Replaced d' filename text := by
  have hmade := (d.prepared_made disk).keepsDirectories
  rcases d.writeText_cases filename text disk with ⟨e', hcase⟩ |
    ⟨beside, place, hbeside, hfree, hplace, hne, ⟨written, e', hcase⟩ |
      ⟨htrailing, hfree', hcase⟩⟩
  · cases hcase.symm.trans h
  · cases hcase.symm.trans h
  · cases hcase.symm.trans h
    have hkeeps := FileTree.keepsDirectories_moved hfree hfree' (Utf8.encode text)
    have hmoved := FileTree.node?_moved hfree hfree' (Utf8.encode text)
    refine ⟨rfl, hmade.trans hkeeps, fun other => ?_, ?_, ?_⟩
    · by_cases hother : other = place
      · exact Or.inr (Or.inr (Or.inl (by rw [hother]; exact hkeeps.locate hplace)))
      by_cases hother' : other = beside
      · exact Or.inr (Or.inr (Or.inr (by rw [hother']; exact hkeeps.locate hbeside)))
      · refine (prepared_node hkeeps ?_).imp_right Or.inl
        rw [hmoved, if_neg hother, if_neg hother']
    · refine FileTree.read_of_node? (hkeeps.locate hplace) ?_ htrailing
      rw [hmoved, if_pos rfl]
    · rw [FileTree.look, hkeeps.locate hbeside]
      dsimp only
      rw [hmoved, if_neg hne.symm, if_pos rfl]

/-! ## What is read after a failure -/

/-- **A failed write leaves under the name of its file what was there,** or a directory that was
made on the way, where there was nothing. -/
theorem look_of_failed {e : FileError} (hclosed : d.tree.Closed)
    (h : d.writeText filename text disk = (d', .error e)) :
    d'.tree.look (d.statePath filename) = d.tree.look (d.statePath filename) ∨
      d.tree.look (d.statePath filename) = .error .notFound ∧
        ∃ place, d'.tree.locate (d.statePath filename) = .ok place ∧ d.MadeAt d' place := by
  have hmade := (d.prepared_made disk).look hclosed
    (FilePath.resolved_join d.stateDirectory filename) rfl
  have hnew : ∀ {t : FileTree} {place}, FileTree.KeepsDirectories (d.prepared disk) t →
      t.node? place = (d.prepared disk).node? place → d.tree.node? place = none →
      (d.prepared disk).node? place = some .directory → d.MadeAt { d with tree := t } place := by
    intro t place hkeeps hsame hnone hthere
    refine (prepared_node hkeeps hsame).resolve_left fun hbefore => ?_
    rw [hsame, hthere, hnone] at hbefore
    cases hbefore
  rcases d.writeText_cases filename text disk with ⟨e', hcase⟩ |
    ⟨beside, place, hbeside, hfree, hplace, hne, ⟨written, e', hcase⟩ | ⟨-, -, hcase⟩⟩
  · cases hcase.symm.trans h
    refine hmade.imp_right fun ⟨hbefore, place, hlocate, hnone, hthere⟩ => ?_
    exact ⟨hbefore, place, hlocate, hnew ⟨rfl, fun _ => id⟩ rfl hnone hthere⟩
  · cases hcase.symm.trans h
    have hkeeps := FileTree.keepsDirectories_put hfree (.file ((Utf8.encode text).take written))
    have hput := FileTree.node?_put (t := d.prepared disk) (FileTree.ne_nil_of_node? hfree)
      (.file ((Utf8.encode text).take written))
    have hsame : ((d.prepared disk).put beside (.file ((Utf8.encode text).take written))).look
        (d.statePath filename) = (d.prepared disk).look (d.statePath filename) := by
      rw [FileTree.look, FileTree.look, hkeeps.locate hplace, hplace]
      dsimp only
      rw [hput, if_neg hne]
    refine (hmade.imp_left hsame.trans).imp_right
      fun ⟨hbefore, place', hlocate, hnone, hthere⟩ => ?_
    obtain rfl : place = place' := Except.ok.inj (hplace.symm.trans hlocate)
    exact ⟨hbefore, place, hkeeps.locate hplace,
      hnew hkeeps (by rw [hput, if_neg hne]) hnone hthere⟩
  · cases hcase.symm.trans h

end DirectoryStorage

end ChangeGate
