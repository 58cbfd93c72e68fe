import ChangeGate.Proofs.Files.Made
import ChangeGate.Proofs.Storage.Mirror
/-!
# Log files

The first line that is added to a log makes the file, unless a call on files fails, and from then
on every line is added at the end of it (`holds_of_appendLine`, `Holds.appendLine`). So the file has
the text of the lines, and to split the text at line feeds gives them back, as long as no line holds
one (`splitOn_logText`).
-/

namespace ChangeGate

open Text

/-- **The lines of a log text,** and the empty one behind the last line feed. -/
theorem splitOn_logText {lines : List String} (h : ∀ line ∈ lines, '\n' ∉ line.toList) :
    ((logText lines).toList.splitOn '\n').map String.ofList = lines ++ [""] := by
  induction lines with
  | nil => rfl
  | cons line rest ih =>
    have hnewline : "\n".toList = ['\n'] := rfl
    rw [logText, String.toList_append, String.toList_append, hnewline, List.append_assoc,
      List.singleton_append,
      List.splitOn_append_cons_self_of_not_mem (h line List.mem_cons_self), List.map_cons,
      String.ofList_toList, ih fun line' hline' => h line' (List.mem_cons_of_mem line hline')]
    rfl

namespace DirectoryStorage

variable {d d' : DirectoryStorage} {filename : String} {bytes : List UInt8}

/-- **A log file that is there** and has some bytes, in a directory for logs that is there. -/
structure Holds (d : DirectoryStorage) (filename : String) (bytes : List UInt8) : Prop where
  directory : d.tree.look d.logDirectory = .ok .directory
  trailing : (d.logPath filename).trailing = false
  file : ∃ place, d.tree.locate (d.logPath filename) = .ok place ∧
    d.tree.node? place = some (.file bytes)

/-- What is added to a log file stands behind what it had, and the file is there in any case. -/
theorem holds_of_append {made appended : FileTree} {place : Location}
    (hdirectory : made.look d.logDirectory = .ok .directory)
    (hplace : made.locate (d.logPath filename) = .ok place)
    (h : made.append (d.logPath filename) bytes = .ok appended) :
    Holds { d with tree := appended } filename (made.bytesAt place ++ bytes) := by
  obtain ⟨place', hlocate, htrailing, hfree, rfl⟩ := FileTree.append_ok h
  obtain rfl : place = place' := Except.ok.inj (hplace.symm.trans hlocate)
  have hkeeps := FileTree.keepsDirectories_put hfree (.file (made.bytesAt place ++ bytes))
  have hput := FileTree.node?_put (t := made) (FileTree.ne_nil_of_node? hfree)
    (.file (made.bytesAt place ++ bytes))
  obtain ⟨logs, hlogs, hnode⟩ := FileTree.look_directory hdirectory
  refine ⟨?_, htrailing, place, hkeeps.locate hlocate, by rw [hput, if_pos rfl]⟩
  have hthere := hkeeps.directory logs hnode
  have hlead : (made.put place (.file (made.bytesAt place ++ bytes))).look d.logDirectory =
      .ok .directory := by
    rw [FileTree.look, hkeeps.locate hlogs]
    dsimp only
    rw [hthere]
  exact hlead

theorem home_appendLine (d : DirectoryStorage) (filename line : String) :
    (d.appendLine filename line).1.home = d.home := by
  unfold DirectoryStorage.appendLine
  split
  · rfl
  · split <;> rfl

/-- **A line is added to a log file that is there.** -/
theorem Holds.appendLine (h : d.Holds filename bytes) (line : String) :
    ∃ d', d.appendLine filename line = (d', .ok ()) ∧
      d'.Holds filename (bytes ++ Utf8.encode (line ++ "\n")) := by
  obtain ⟨place, hlocate, hnode⟩ := h.file
  have hmade := FileTree.makeDirectories_of_look plainName_logs h.directory
  have happend : d.tree.append (d.logPath filename) (Utf8.encode (line ++ "\n")) =
      .ok (d.tree.put place (.file (d.tree.bytesAt place ++ Utf8.encode (line ++ "\n")))) := by
    simp [FileTree.append, FileTree.locateFile, hlocate, h.trailing, hnode]
  have hbytes : d.tree.bytesAt place = bytes := by rw [FileTree.bytesAt, hnode]
  have hholds := holds_of_append h.directory hlocate happend
  rw [hbytes] at hholds
  refine ⟨_, ?_, hholds⟩
  unfold DirectoryStorage.appendLine
  rw [show d.tree.makeDirectories d.logDirectory = (d.tree, .ok ()) from hmade]
  dsimp only
  rw [happend, hbytes]

/-- **The first line makes the file.** There was nothing under its name, and making directories has
put no file there. -/
theorem holds_of_appendLine (hclosed : d.tree.Closed)
    (hfree : d.tree.isPresent (d.logPath filename) = false) {line : String}
    (h : d.appendLine filename line = (d', .ok ())) :
    d'.Holds filename (Utf8.encode (line ++ "\n")) := by
  unfold DirectoryStorage.appendLine at h
  split at h
  · cases h
  rename_i made hmade
  split at h
  · cases h
  rename_i appended happended
  cases h
  have hparts : d.logDirectory.parts ≠ [] := FilePath.parts_join plainName_logs
  have honly := FileTree.makeDirectories_made hparts d.tree .sound
  rw [hmade] at honly
  obtain ⟨place, hlocate, htrailing, hnot, -⟩ := FileTree.append_ok happended
  have hnone : made.bytesAt place = [] := by
    rw [FileTree.bytesAt]
    split
    · rename_i bytes hfile
      have hlook : made.look (d.logPath filename) = .ok (.file bytes) := by
        simp [FileTree.look, hlocate, hfile, htrailing]
      rcases honly.look hclosed (FilePath.resolved_join d.logDirectory filename) rfl with
        hsame | ⟨-, hnew⟩
      · have hbefore : d.tree.look (d.logPath filename) = .ok (.file bytes) := hsame ▸ hlook
        rw [FileTree.isPresent, hbefore] at hfree
        cases hfree
      · obtain ⟨place', hlocate', -, hdirectory⟩ := hnew
        obtain rfl : place = place' := Except.ok.inj (hlocate.symm.trans hlocate')
        rw [hfile] at hdirectory
        cases hdirectory
    · rfl
  have hholds := holds_of_append (FileTree.look_makeDirectories plainName_logs hmade) hlocate
    happended
  rwa [hnone, List.nil_append] at hholds

/-- **The first line can be added** where the home directory is there, no file is in the place of
the directory for logs, and the name of the log is plain. -/
theorem appendLine_of_free {base : Location} (hclosed : d.tree.Closed)
    (hfree : d.tree.isPresent (d.logPath filename) = false) (hname : PlainName filename)
    (hlocate : d.tree.locate d.home = .ok base) (hbase : d.tree.node? base = some .directory)
    (hlogs : d.tree.node? (base ++ ["logs"]) = none ∨
      d.tree.node? (base ++ ["logs"]) = some .directory) (line : String) :
    (d.appendLine filename line).2 = .ok () := by
  obtain ⟨made, hmade, hkeeps, hnodes⟩ :=
    FileTree.makeDirectories_join plainName_logs hlocate hbase hlogs
  have hentry := FileTree.locate_entry plainName_logs hlocate hbase
  have hthere : made.node? (base ++ ["logs"]) = some .directory := by rw [hnodes, if_pos rfl]
  have hplace : made.node? (base ++ ["logs"] ++ [filename]) ≠ some .directory := by
    rw [hnodes, if_neg (by simp)]
    rcases hlogs with hnone | hdirectory
    · rw [hclosed.below (by rw [hnone]; simp) (List.cons_ne_nil filename [])]
      simp
    · intro hoccupied
      have hlook : d.tree.look (d.logPath filename) = .ok .directory := by
        have hfound := FileTree.look_entry hname hentry hdirectory
        rwa [hoccupied] at hfound
      rw [FileTree.isPresent, hlook] at hfree
      cases hfree
  have happend := FileTree.append_entry hname (hkeeps.locate hentry) hthere hplace
    (Utf8.encode (line ++ "\n"))
  unfold DirectoryStorage.appendLine logPath logDirectory
  simp only [hmade, happend]

/-- The text of a log file that is there. -/
theorem Holds.rawText {text : String} (h : d.Holds filename (Utf8.encode text)) :
    d.rawText (d.logPath filename) = .ok (some text) := by
  obtain ⟨place, hlocate, hnode⟩ := h.file
  have hlook : d.tree.look (d.logPath filename) = lookOf (some text) := by
    simp [FileTree.look, hlocate, hnode, h.trailing, lookOf]
  exact Mirrors.rawText_of_look hlook

end DirectoryStorage

end ChangeGate
