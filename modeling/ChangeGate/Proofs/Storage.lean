import ChangeGate.Proofs.Files
import ChangeGate.Proofs.Json.Value
import ChangeGate.Proofs.Text.Utf8
import ChangeGate.Storage.Basic
/-!
# State read back

What was written to a state file is read from it, in memory and below a home directory alike. So
a check sees the very value that was written (`readJson_writeJson`).
-/

namespace ChangeGate

theorem DirectoryStorage.readText_writeText {s written : DirectoryStorage} {filename text : String}
    {disk : Disk} (h : s.writeText filename text disk = (written, .ok ())) :
    written.readText filename = .ok (some text) := by
  unfold writeText at h
  dsimp only at h
  split at h
  · cases h
  · rename_i made hmade
    split at h
    · cases h
    · rename_i beside hbeside
      split at h
      · cases h
      · rename_i renamed hrenamed
        cases h
        have hread : renamed.read (statePath { s with tree := renamed } filename) =
            .ok (Text.Utf8.encode text) :=
          FileTree.read_rename hrenamed (FileTree.read_write hbeside)
        rw [readText, hread]
        dsimp only
        rw [Text.Utf8.decode_encode]

namespace Storage

variable {s written : Storage} {filename : String} {v : Json}

/-- **The text of a value that was written.** -/
theorem readText_writeJson (h : s.writeJson filename v = (written, .ok ())) :
    written.readText filename = .ok (some v.indented) := by
  cases s with
  | memory m =>
    cases h
    rw [readText]
    simp [MemoryStorage.writeText]
  | directory d =>
    rw [writeJson] at h
    generalize hwrite : d.writeText filename v.indented = r at h
    obtain ⟨d', outcome⟩ := r
    cases outcome with
    | error e => cases h
    | ok _ =>
      cases h
      rw [readText, DirectoryStorage.readText_writeText hwrite]

/-- **A check sees the value of a text** that is that of a readable value. -/
theorem readJson_of_readText {α : Type} (hv : v.Readable)
    (h : s.readText filename = .ok (some v.indented)) (check : Check α) (fallback : α) :
    s.readJson check filename fallback =
      match (check [] (some v)).result with
      | .ok a => .ok a
      | .error issues => .error (.invalid filename issues) := by
  rw [readJson, h]
  cases hresult : (check [] (some v)).result <;>
    simp only [interpret, Json.parse?_indented hv, hresult]

/-- **A check sees the value that was written.** -/
theorem readJson_writeJson {α : Type} (hv : v.Readable)
    (h : s.writeJson filename v = (written, .ok ())) (check : Check α) (fallback : α) :
    written.readJson check filename fallback =
      match (check [] (some v)).result with
      | .ok a => .ok a
      | .error issues => .error (.invalid filename issues) :=
  readJson_of_readText hv (readText_writeJson h) check fallback

end Storage

end ChangeGate
