import ChangeGate.Proofs.Storage.Mirror
import ChangeGate.Proofs.Storage.Replaced
/-!
# Storages stay closed

What a call makes, it makes in a directory that is there, even if it fails on the way. So a home
directory in a closed tree stays in one, whatever calls are made on it (`Closed.calls`), and what is
shown of a closed tree holds after every run of calls.
-/

namespace ChangeGate

namespace DirectoryStorage

variable {d : DirectoryStorage}

/-- **A write leaves a closed tree closed,** whether or not it succeeds. -/
theorem closed_writeText (hclosed : d.tree.Closed) (filename text : String) (disk : Disk) :
    (d.writeText filename text disk).1.tree.Closed := by
  have hmade := (d.prepared_made disk).closed hclosed
  rcases d.writeText_cases filename text disk with ⟨e, hcase⟩ |
    ⟨beside, place, hbeside, hfree, hplace, -, hrest⟩
  · rw [hcase]
    exact hmade
  -- the two paths start at the same place, and the one with an ending has a part
  have hstart := FileTree.directory_of_follow (FilePath.parts_withSuffix _ _) hbeside
  rcases hrest with ⟨written, e, hcase⟩ | ⟨-, hfree', hcase⟩
  · rw [hcase]
    exact hmade.put (hmade.above hstart hbeside) hfree _
  · rw [hcase]
    rw [besidePath, FilePath.absolute_withSuffix] at hstart
    exact hmade.moved hfree hfree' _ (hmade.above hstart hplace)

/-- **And so does a line that is added to a log.** -/
theorem closed_appendLine (hclosed : d.tree.Closed) (filename line : String) :
    (d.appendLine filename line).1.tree.Closed := by
  have hparts : d.logDirectory.parts ≠ [] := FilePath.parts_join plainName_logs
  have honly := FileTree.makeDirectories_made hparts d.tree .sound
  unfold DirectoryStorage.appendLine
  split
  · rename_i made e hmade
    rw [hmade] at honly
    exact honly.closed hclosed
  rename_i made hmade
  rw [hmade] at honly
  split
  · exact honly.closed hclosed
  · rename_i appended happended
    obtain ⟨place, hlocate, -, hfree, rfl⟩ := FileTree.append_ok happended
    -- the path of a log starts where that of its directory does, which is a directory itself
    obtain ⟨logs, hlogs, -⟩ :=
      FileTree.look_directory (FileTree.look_makeDirectories plainName_logs hmade)
    have hstart := FileTree.directory_of_follow hparts hlogs
    exact (honly.closed hclosed).put ((honly.closed hclosed).above hstart hlocate) hfree _

end DirectoryStorage

namespace Storage

/-- **A storage whose files are all in directories.** In memory there are no others. -/
def Closed : Storage → Prop
  | .memory _ => True
  | .directory d => d.tree.Closed

variable {s : Storage}

/-- **One call leaves a storage closed.** -/
theorem Closed.call (h : s.Closed) (c : Call) : (s.call c).1.Closed := by
  cases s with
  | memory m => cases c <;> exact trivial
  | directory d =>
    cases c with
    | read check filename fallback => exact h
    | write filename v => exact d.closed_writeText h filename v.indented .sound
    | append filename line => exact d.closed_appendLine h filename line

/-- **And so do calls one after another.** -/
theorem Closed.calls (h : s.Closed) (cs : List Call) : (s.calls cs).1.Closed := by
  induction cs generalizing s with
  | nil => exact h
  | cons c rest ih => exact ih (h.call c)

end Storage

end ChangeGate
