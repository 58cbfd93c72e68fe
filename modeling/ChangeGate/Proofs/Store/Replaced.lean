import ChangeGate.Proofs.Storage.Closed
import ChangeGate.Proofs.Store.Save
/-!
# What a save that fails leaves

A save that fails spares the state file, whatever the disk has refused. So what is read next is what
would have been read before, with one exception: a file name that leads to one of the directories on
the way to the one for state, as `.` does, and does so only once the save has made it
(`replaced_or_spared`).

To read may be refused as well, and a directory that was made can be the reason for it: on a disk
with a limit to names, one that is too long is no name of a missing file once its directory is there
(`not_read_save_unchanged`).
-/

namespace ChangeGate

namespace DirectoryStorage

variable {d d' : DirectoryStorage} {filename : String} {disk : Disk}

theorem statePath_congr (h : d'.home = d.home) (filename : String) :
    d'.statePath filename = d.statePath filename := by
  rw [statePath, stateDirectory, h]
  rfl

/-- What is read of a state file is what is there under its name, unless the disk refuses it. -/
theorem readText_congr (hhome : d'.home = d.home)
    (hrefusal : disk.reading d'.tree (d.statePath filename) =
      disk.reading d.tree (d.statePath filename))
    (hlook : disk.reading d.tree (d.statePath filename) = none →
      d'.tree.look (d.statePath filename) = d.tree.look (d.statePath filename)) :
    d'.readText filename disk = d.readText filename disk := by
  rw [readText, readText, statePath_congr hhome, FileTree.read, FileTree.read, hrefusal]
  cases hreading : disk.reading d.tree (d.statePath filename) with
  | none => rw [hlook hreading]
  | some e => rfl

end DirectoryStorage

namespace Store

variable {d d' : DirectoryStorage} {filename text : String} {disk reader : Disk}

theorem read_of_notFound (hreading : disk.reading d.tree (d.statePath filename) = none)
    (h : d.tree.look (d.statePath filename) = .error .notFound) :
    read (.directory d) filename disk = .ok [] := by
  simp [read, Storage.readJson, Storage.readText, DirectoryStorage.readText, FileTree.read,
    hreading, h]

theorem read_of_directory (hreading : disk.reading d.tree (d.statePath filename) = none)
    (h : d.tree.look (d.statePath filename) = .ok .directory) :
    read (.directory d) filename disk = .error (.files .isDirectory) := by
  simp [read, Storage.readJson, Storage.readText, DirectoryStorage.readText, FileTree.read,
    hreading, h]

/-- A save fails as the write of its file does. -/
theorem save_error {changes : List Change} {storage : Storage} {e : StorageError}
    (h : save (.directory d) filename changes disk = (storage, .error e)) :
    ∃ d' text failure, d.writeText filename text disk = (d', .error failure) ∧
      storage = .directory d' := by
  unfold save at h
  dsimp only at h
  split at h
  · cases h
  · rename_i written e' hwrite
    cases h
    rw [Storage.writeJson] at hwrite
    generalize hresult : d.writeText filename _ disk = r at hwrite
    obtain ⟨d', outcome⟩ := r
    cases outcome with
    | ok _ => cases hwrite
    | error failure =>
      cases hwrite
      exact ⟨d', _, failure, hresult, rfl⟩

/-- **What is read after a write that failed** is what was read before, or a directory that the
write has made, if the disk refuses to read in neither case or for the same reason in both. -/
theorem read_of_failed {e : FileError} (hclosed : d.tree.Closed)
    (hwrite : d.writeText filename text disk = (d', .error e))
    (hrefusal : reader.reading d'.tree (d.statePath filename) =
      reader.reading d.tree (d.statePath filename)) :
    read (.directory d') filename reader = read (.directory d) filename reader ∨
      read (.directory d) filename reader = .ok [] ∧
      read (.directory d') filename reader = .error (.files .isDirectory) ∧
      ∃ place, d'.tree.locate (d.statePath filename) = .ok place ∧ d.MadeAt d' place := by
  have hhome := (DirectoryStorage.spared_of_writeText hwrite).home
  have hsame : (reader.reading d.tree (d.statePath filename) = none →
        d'.tree.look (d.statePath filename) = d.tree.look (d.statePath filename)) →
      read (.directory d') filename reader = read (.directory d) filename reader := by
    intro hlook
    have htext := DirectoryStorage.readText_congr hhome hrefusal hlook
    simp only [read, Storage.readJson, Storage.readText, htext]
  rcases DirectoryStorage.look_of_failed hclosed hwrite with
    hlook | ⟨hbefore, place, hlocate, hmade⟩
  · exact Or.inl (hsame fun _ => hlook)
  -- there is a directory now where nothing was, which shows only if to read is not refused
  cases hreading : reader.reading d.tree (d.statePath filename) with
  | some refusal => exact Or.inl (hsame fun hnone => by rw [hreading] at hnone; cases hnone)
  | none =>
    refine Or.inr ⟨read_of_notFound hreading hbefore, ?_, place, hlocate, hmade⟩
    rw [hreading] at hrefusal
    refine read_of_directory ?_ ?_ <;> rw [DirectoryStorage.statePath_congr hhome]
    · exact hrefusal
    · rw [FileTree.look, hlocate]
      simp only [hmade.2.1]

/-- **A state file is replaced or spared, whichever step fails or is refused.** A write that succeeds
leaves the text of the value and nothing beside it; one that fails leaves all that there was. In
either case everything still is in a directory, so that the next write is of this kind too. And what
is read after a save that failed is what was read before, if the disk treats the two alike, unless
the file name leads to a directory that the save has made: then there were no snapshots before, and
now there is a directory. -/
theorem replaced_or_spared (hclosed : d.tree.Closed) (filename : String) (disk : Disk) :
    (∀ v, ∃ d', d'.tree.Closed ∧
      ((Storage.directory d).writeJson filename v disk = (.directory d', .ok ()) ∧
          d.Replaced d' filename v.indented ∨
        (∃ e, (Storage.directory d).writeJson filename v disk = (.directory d', .error e)) ∧
          d.Spared d' filename v.indented)) ∧
    ∀ changes storage e, save (.directory d) filename changes disk = (storage, .error e) →
      ∃ d', storage = .directory d' ∧ ∀ reader : Disk,
        reader.reading d'.tree (d.statePath filename) =
            reader.reading d.tree (d.statePath filename) →
          read storage filename reader = read (.directory d) filename reader ∨
            read (.directory d) filename reader = .ok [] ∧
            read storage filename reader = .error (.files .isDirectory) ∧
            ∃ place, d'.tree.locate (d.statePath filename) = .ok place ∧ d.MadeAt d' place := by
  refine ⟨fun v => ?_, fun changes storage e hsave => ?_⟩
  · have hafter := d.closed_writeText hclosed filename v.indented disk
    rw [Storage.writeJson]
    generalize hresult : d.writeText filename v.indented disk = r at hafter ⊢
    obtain ⟨d', outcome⟩ := r
    refine ⟨d', hafter, ?_⟩
    cases outcome with
    | ok _ => exact Or.inl ⟨rfl, DirectoryStorage.replaced_of_writeText hresult⟩
    | error failure => exact Or.inr ⟨⟨_, rfl⟩, DirectoryStorage.spared_of_writeText hresult⟩
  · obtain ⟨d', text, failure, hwrite, rfl⟩ := save_error hsave
    exact ⟨d', rfl, fun reader hrefusal => read_of_failed hclosed hwrite hrefusal⟩

end Store

/-! ## A disk that is full -/

/-- **A disk on which there is room for the first bytes of a file** and for no more. -/
def Disk.full (room : Nat) : Disk where
  filling _ _ := some (room, .refused "ENOSPC")

namespace Store

/-- A change for which an override was set. -/
def overridden : Change where
  profile := ⟨.one, none, none, false, false, none, false⟩
  maps := ⟨NameMap.empty.insert "app" (.unconditional true), .empty⟩

/-- The home directory after that change was saved. -/
def savedHome : DirectoryStorage :=
  (emptyHome.writeText defaultFilename (StateFile.toJson ⟨snapshots [overridden]⟩).indented).1

theorem savedHome_closed : savedHome.tree.Closed :=
  emptyHome.closed_writeText emptyHome_closed _ _ .sound

theorem read_savedHome :
    read (.directory savedHome) defaultFilename = .ok (snapshots [overridden]) := by
  have hsave : save (.directory emptyHome) defaultFilename [overridden] =
      (.directory savedHome, .ok 1) := rfl
  refine read_of_save_named hsave fun c hc _ => ?_
  rw [List.mem_singleton.1 hc]
  exact ⟨by decide, by decide⟩

/-- Ten bytes of the second save are beside the file, which has what was saved first. -/
theorem savedHome_spared :
    savedHome.tree.Closed ∧ ∃ d',
      save (.directory savedHome) defaultFilename [] (.full 10) =
        (.directory d', .error (.files (.refused "ENOSPC"))) ∧
      savedHome.Spared d' defaultFilename (StateFile.toJson ⟨[]⟩).indented ∧
      d'.tree.look (savedHome.besidePath defaultFilename) =
        .ok (.file (Text.Utf8.encode "\x7b\n  \"versi")) ∧
      read (.directory d') defaultFilename = .ok (snapshots [overridden]) := by
  obtain ⟨hwrite, hread⟩ := replaced_or_spared savedHome_closed defaultFilename (.full 10)
  have hfails : ((Storage.directory savedHome).writeJson defaultFilename (StateFile.toJson ⟨[]⟩)
      (.full 10)).2 = .error (.files (.refused "ENOSPC")) := rfl
  refine ⟨savedHome_closed, ?_⟩
  obtain ⟨d', -, ⟨hdone, -⟩ | ⟨⟨e, hfailed⟩, hspared⟩⟩ := hwrite (StateFile.toJson ⟨[]⟩)
  · rw [hdone] at hfails
    cases hfails
  have hd' : (savedHome.writeText defaultFilename (StateFile.toJson ⟨[]⟩).indented (.full 10)).1 =
      d' := Storage.directory.inj (congrArg Prod.fst hfailed)
  rw [hfailed] at hfails
  cases hfails
  have hsave : save (.directory savedHome) defaultFilename [] (.full 10) =
      (.directory d', .error (.files (.refused "ENOSPC"))) := by
    rw [save, show snapshots [] = [] from rfl, hfailed]
  obtain ⟨d'', heq, hreaders⟩ := hread _ _ _ hsave
  cases heq
  refine ⟨d', hsave, hspared, ?_, ?_⟩
  · have hbegun : (Text.Utf8.encode (StateFile.toJson ⟨[]⟩).indented).take 10 =
        Text.Utf8.encode "\x7b\n  \"versi" := by decide +kernel
    rw [← hd', ← hbegun]
    rfl
  · rcases hreaders .sound rfl with hsame | ⟨hnone, -⟩
    · rw [hsame, read_savedHome]
    · rw [read_savedHome] at hnone
      cases hnone

end Store

/-! ## A limit to names -/

/-- Whether one of the parts that are looked up on the way has more than `limit` bytes. -/
def FileTree.meetsLongName (t : FileTree) (limit : Nat) (place : Location) : List String → Bool
  | [] => false
  | part :: rest =>
    match t.enter place part with
    | .error _ => false
    | .ok next => limit < (Text.Utf8.encode part).length || t.meetsLongName limit next rest

def FileTree.refusedName (limit : Nat) (t : FileTree) (p : FilePath) : Option FileError :=
  if t.meetsLongName limit (t.origin p) p.parts then some (.refused "ENAMETOOLONG") else none

/-- **A disk on which a name has at most `limit` bytes.** A longer one is refused where it is looked
up, in a directory that is there. -/
def Disk.shortNames (limit : Nat) : Disk where
  making := FileTree.refusedName limit
  reading := FileTree.refusedName limit
  opening := FileTree.refusedName limit
  moving t p q := (t.refusedName limit p).or (t.refusedName limit q)

namespace Store

/-- **A save that fails can change what is read.** The name `.` leads to the directory for state,
which the save makes, and which cannot be replaced then. And a name that is too long is that of a
missing file until the save has made the directory, but is refused from then on. -/
theorem not_read_save_unchanged :
    (¬ ∀ d : DirectoryStorage, d.tree.Closed → ∀ filename changes storage e,
      save (.directory d) filename changes = (storage, .error e) →
        read storage filename = read (.directory d) filename) ∧
    ¬ ∀ d : DirectoryStorage, d.tree.Closed → ∀ filename, PlainName filename →
      ∀ disk changes storage e, save (.directory d) filename changes disk = (storage, .error e) →
        read storage filename disk = read (.directory d) filename disk := by
  refine ⟨fun h => ?_, fun h => ?_⟩
  · have hsave : (save (.directory emptyHome) "." []).2 = .error (.files .isDirectory) := by rfl
    have hbefore : read (.directory emptyHome) "." = .ok [] := by rfl
    have hafter :
        read (save (.directory emptyHome) "." []).1 "." = .error (.files .isDirectory) := by rfl
    have hsame := h emptyHome emptyHome_closed "." [] _ _ (Prod.ext rfl hsave)
    cases (hafter.symm.trans hsame).trans hbefore
  · have hsave : (save (.directory emptyHome) defaultFilename [] (.shortNames 14)).2 =
        .error (.files (.refused "ENAMETOOLONG")) := by rfl
    have hbefore : read (.directory emptyHome) defaultFilename (.shortNames 14) = .ok [] := by rfl
    have hafter : read (save (.directory emptyHome) defaultFilename [] (.shortNames 14)).1
        defaultFilename (.shortNames 14) = .error (.files (.refused "ENAMETOOLONG")) := by rfl
    have hsame := h emptyHome emptyHome_closed defaultFilename (by decide) (.shortNames 14) [] _ _
      (Prod.ext rfl hsave)
    cases (hafter.symm.trans hsame).trans hbefore

end Store

end ChangeGate
