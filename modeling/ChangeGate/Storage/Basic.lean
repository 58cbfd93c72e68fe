import ChangeGate.Files.Tree
import ChangeGate.Json.Parser
import ChangeGate.Json.Printer
import ChangeGate.NameMap
import ChangeGate.Schema.Checked
import ChangeGate.Text.Utf8
/-!
# Storage

Where state files and log files are kept: in memory, or below a home directory, with the state in
`state` and the logs in `logs`. State is JSON text, and is checked whenever it is read; a log
grows line by line.

A state file is never left half-written below a home directory: the new text goes to a file
beside it, which then takes its name. Every call on files that it takes to read or to replace a
state file may be refused by the disk; where no disk is named, it refuses nothing.
-/

namespace ChangeGate

/-- Why a call on a storage fails. -/
inductive StorageError where
  | files (error : FileError)
  | invalid (filename : String) (issues : List Issue)

def StorageError.message : StorageError → String
  | files e => e.code
  | invalid filename issues =>
    "Persisted state '" ++ filename ++ "' is invalid: " ++ Issue.report issues

/-- **State and logs in memory.** -/
structure MemoryStorage where
  files : NameMap String := .empty
  logs : NameMap (List String) := .empty

/-- **State and logs below a home directory** of a file tree. -/
structure DirectoryStorage where
  tree : FileTree
  home : FilePath

inductive Storage where
  | memory (storage : MemoryStorage)
  | directory (storage : DirectoryStorage)

namespace MemoryStorage

def writeText (s : MemoryStorage) (filename text : String) : MemoryStorage :=
  { s with files := s.files.insert filename text }

def lines (s : MemoryStorage) (filename : String) : List String :=
  (s.logs.get? filename).getD []

def appendLine (s : MemoryStorage) (filename line : String) : MemoryStorage :=
  { s with logs := s.logs.insert filename (s.lines filename ++ [line]) }

end MemoryStorage

namespace DirectoryStorage

def stateDirectory (s : DirectoryStorage) : FilePath :=
  s.home.join "state"

def logDirectory (s : DirectoryStorage) : FilePath :=
  s.home.join "logs"

def statePath (s : DirectoryStorage) (filename : String) : FilePath :=
  s.stateDirectory.join filename

def logPath (s : DirectoryStorage) (filename : String) : FilePath :=
  s.logDirectory.join filename

/-- The text of a state file, if there is one. -/
def readText (s : DirectoryStorage) (filename : String) (disk : Disk := .sound) :
    Except FileError (Option String) :=
  match s.tree.read (s.statePath filename) disk with
  | .ok bytes => .ok (some (Text.Utf8.decode bytes))
  | .error .notFound => .ok none
  | .error e => .error e

/-- **Replaces a state file.** The directory is made first; then the text is written beside the
file and renamed. -/
def writeText (s : DirectoryStorage) (filename text : String) (disk : Disk := .sound) :
    DirectoryStorage × Except FileError Unit :=
  let target := s.statePath filename
  let beside := target.withSuffix ".tmp"
  match s.tree.makeDirectories s.stateDirectory disk with
  | (made, .error e) => ({ s with tree := made }, .error e)
  | (made, .ok ()) =>
    match made.write beside (Text.Utf8.encode text) disk with
    | (written, .error e) => ({ s with tree := written }, .error e)
    | (written, .ok ()) =>
      match written.rename beside target disk with
      | .error e => ({ s with tree := written }, .error e)
      | .ok renamed => ({ s with tree := renamed }, .ok ())

/-- Adds a line to a log, which is made together with its directory if need be. -/
def appendLine (s : DirectoryStorage) (filename line : String) :
    DirectoryStorage × Except FileError Unit :=
  match s.tree.makeDirectories s.logDirectory with
  | (made, .error e) => ({ s with tree := made }, .error e)
  | (made, .ok ()) =>
    match made.append (s.logPath filename) (Text.Utf8.encode (line ++ "\n")) with
    | .error e => ({ s with tree := made }, .error e)
    | .ok appended => ({ s with tree := appended }, .ok ())

/-- The text of a file, whatever it is called; none if there is nothing. -/
def rawText (s : DirectoryStorage) (p : FilePath) : Except FileError (Option String) :=
  if s.tree.isPresent p then
    match s.tree.read p with
    | .ok bytes => .ok (some (Text.Utf8.decode bytes))
    | .error e => .error e
  else .ok none

/-- Puts a file in its place with all directories above it. -/
def plantFile (s : DirectoryStorage) (filename : String) (bytes : List UInt8) :
    DirectoryStorage × Except FileError Unit :=
  let target := s.statePath filename
  match s.tree.makeDirectories target.directory with
  | (made, .error e) => ({ s with tree := made }, .error e)
  | (made, .ok ()) =>
    let (written, outcome) := made.write target bytes
    ({ s with tree := written }, outcome)

/-- Puts a directory in its place with all directories above it. -/
def plantDirectory (s : DirectoryStorage) (filename : String) :
    DirectoryStorage × Except FileError Unit :=
  let (made, outcome) := s.tree.makeDirectories (s.statePath filename)
  ({ s with tree := made }, outcome)

/-- **All that is below the home directory,** in the order of names. -/
def listing (s : DirectoryStorage) : List String :=
  match s.tree.locate s.home with
  | .error _ => []
  | .ok base =>
    (NameMap.ofList ((s.tree.below base).map fun e => (FileTree.relativeText base e, ()))).keys

end DirectoryStorage

namespace Storage

/-- **The value of a state text.** A text that is not JSON is taken for a missing file. -/
def interpret {α : Type} (check : Check α) (filename : String) (fallback : α) (text : String) :
    Except StorageError α :=
  match Json.parse? text with
  | none => .ok fallback
  | some v =>
    match (check [] (some v)).result with
    | .ok a => .ok a
    | .error issues => .error (.invalid filename issues)

/-- The text of a state file, if there is one. -/
def readText (s : Storage) (filename : String) (disk : Disk := .sound) :
    Except StorageError (Option String) :=
  match s with
  | .memory m => .ok (m.files.get? filename)
  | .directory d =>
    match d.readText filename disk with
    | .ok text => .ok text
    | .error e => .error (.files e)

/-- **Reads a state file,** or gives the fallback if there is none. -/
def readJson {α : Type} (s : Storage) (check : Check α) (filename : String) (fallback : α)
    (disk : Disk := .sound) : Except StorageError α :=
  match s.readText filename disk with
  | .error e => .error e
  | .ok none => .ok fallback
  | .ok (some text) => interpret check filename fallback text

/-- Directory calls as calls of a storage. -/
def ofDirectory (r : DirectoryStorage × Except FileError Unit) :
    Storage × Except StorageError Unit :=
  (.directory r.1,
    match r.2 with
    | .ok () => .ok ()
    | .error e => .error (.files e))

/-- **Replaces a state file** by the text of a value. -/
def writeJson (s : Storage) (filename : String) (v : Json) (disk : Disk := .sound) :
    Storage × Except StorageError Unit :=
  match s with
  | .memory m => (.memory (m.writeText filename v.indented), .ok ())
  | .directory d => ofDirectory (d.writeText filename v.indented disk)

def appendLine (s : Storage) (filename line : String) : Storage × Except StorageError Unit :=
  match s with
  | .memory m => (.memory (m.appendLine filename line), .ok ())
  | .directory d => ofDirectory (d.appendLine filename line)

/-- What a file can be made to hold behind the storage's back. -/
inductive Content where
  | text (text : String)
  | bytes (bytes : List UInt8)
  | directory

/-- Puts content in the place of a state file, be it ill-formed. There is no directory in
memory. -/
def plant (s : Storage) (filename : String) (content : Content) :
    Storage × Except StorageError Unit :=
  match s, content with
  | .memory m, .text text => (.memory (m.writeText filename text), .ok ())
  | .memory m, .bytes bytes => (.memory (m.writeText filename (Text.Utf8.decode bytes)), .ok ())
  | .memory m, .directory => (.memory m, .ok ())
  | .directory d, .text text => ofDirectory (d.plantFile filename (Text.Utf8.encode text))
  | .directory d, .bytes bytes => ofDirectory (d.plantFile filename bytes)
  | .directory d, .directory => ofDirectory (d.plantDirectory filename)

/-- The text of a state file as it stands. -/
def rawText (s : Storage) (filename : String) : Except StorageError (Option String) :=
  match s with
  | .memory m => .ok (m.files.get? filename)
  | .directory d =>
    match d.rawText (d.statePath filename) with
    | .ok text => .ok text
    | .error e => .error (.files e)

/-- **The lines of a log.** In a file each line ends in a line feed, so what follows the last one
is a line too, and is empty. -/
def lines (s : Storage) (filename : String) : Except StorageError (List String) :=
  match s with
  | .memory m => .ok (m.lines filename)
  | .directory d =>
    match d.rawText (d.logPath filename) with
    | .ok none => .ok []
    | .ok (some text) => .ok ((text.toList.splitOn '\n').map String.ofList)
    | .error e => .error (.files e)

/-- All files and directories below the home directory; none in memory, which has neither. -/
def listing? (s : Storage) : Option (List String) :=
  match s with
  | .memory _ => none
  | .directory d => some d.listing

end Storage

end ChangeGate
