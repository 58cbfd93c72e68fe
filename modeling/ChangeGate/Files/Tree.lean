import ChangeGate.Files.Path
/-!
# File trees

A tree of directories and files, and the calls on it by which state and logs are kept: look,
read, write, append, rename, and make directories. There are no links: a place is reached by one
path without dots, and what is put at one place is at no other.

A call fails if the tree has no room for it, and those that it takes to read or to replace a file
may be refused for any other reason, by the disk on which the tree is kept (`Disk`). One that fails
leaves the tree as it was, with two exceptions, which give the tree in either case: `makeDirectories`
may have made some of the directories, and `write` may break off when part of the file is written.

A place in the tree is named by its parts from the root, without dots. A path is followed from
part to part, and every part but the last has to be a directory that is there.
-/

namespace ChangeGate

/-- **Why a call on files fails.** `refused` is for what no tree accounts for, under a code that none
of the others has. -/
inductive FileError where
  | notFound
  | isDirectory
  | notDirectory
  | alreadyThere
  | busy
  | refused (code : String)
deriving DecidableEq

/-- The code under which a failure is known. -/
def FileError.code : FileError → String
  | notFound => "ENOENT"
  | isDirectory => "EISDIR"
  | notDirectory => "ENOTDIR"
  | alreadyThere => "EEXIST"
  | busy => "EBUSY"
  | refused code => code

/-- The parts that lead from the root to a place. -/
abbrev Location := List String

/-- What is at a place. -/
inductive Node where
  | directory
  | file (bytes : List UInt8)
deriving DecidableEq

/-- **A file tree.** The root is a directory of its own accord and has no entry. -/
structure FileTree where
  nodes : List (Location × Node) := []
  workingDirectory : Location := []
deriving DecidableEq

/-- **What a disk refuses,** whatever the tree has room for: for want of space, say, or of
permission, or since a name is too long. To make a directory, to read a file, to open one for
writing and to rename one may be refused, and nothing happens then. To fill a file that was opened
may break off: it then holds as many bytes as were written, which may be none. -/
structure Disk where
  making : FileTree → FilePath → Option FileError := fun _ _ => none
  reading : FileTree → FilePath → Option FileError := fun _ _ => none
  opening : FileTree → FilePath → Option FileError := fun _ _ => none
  filling : FileTree → FilePath → Option (Nat × FileError) := fun _ _ => none
  moving : FileTree → FilePath → FilePath → Option FileError := fun _ _ _ => none

/-- A disk that refuses nothing. -/
def Disk.sound : Disk := {}

/-- A call that does what the tree has room for, unless it is refused. -/
def unlessRefused {α : Type} (refusal : Option FileError) (call : Except FileError α) :
    Except FileError α :=
  match refusal with
  | some e => .error e
  | none => call

namespace FileTree

/-- What is at a place, if anything. -/
def node? (t : FileTree) (place : Location) : Option Node :=
  if place = [] then some .directory else t.nodes.lookup place

/-- Puts something at a place, instead of what is there. -/
def put (t : FileTree) (place : Location) (node : Node) : FileTree :=
  { t with nodes := (place, node) :: t.nodes.filter (fun e => e.1 ≠ place) }

/-- Removes what is at a place. -/
def remove (t : FileTree) (place : Location) : FileTree :=
  { t with nodes := t.nodes.filter (fun e => e.1 ≠ place) }

/-! ## Following a path -/

/-- **One part further.** What was reached so far has to be a directory. -/
def enter (t : FileTree) (place : Location) (part : String) : Except FileError Location :=
  match t.node? place with
  | none => .error .notFound
  | some (.file _) => .error .notDirectory
  | some .directory =>
    if part = "." then .ok place
    else if part = ".." then .ok place.dropLast
    else .ok (place ++ [part])

def follow (t : FileTree) (place : Location) : List String → Except FileError Location
  | [] => .ok place
  | part :: rest =>
    match t.enter place part with
    | .error e => .error e
    | .ok next => follow t next rest

/-- **The place that a path names.** There need not be anything there. -/
def locate (t : FileTree) (p : FilePath) : Except FileError Location :=
  t.follow (if p.absolute then [] else t.workingDirectory) p.parts

/-- **What a path names.** With a separator at its end only a directory will do. -/
def look (t : FileTree) (p : FilePath) : Except FileError Node :=
  match t.locate p with
  | .error e => .error e
  | .ok place =>
    match t.node? place with
    | none => .error .notFound
    | some .directory => .ok .directory
    | some (.file bytes) => if p.trailing then .error .notDirectory else .ok (.file bytes)

def isPresent (t : FileTree) (p : FilePath) : Bool :=
  (t.look p).toOption.isSome

/-! ## Files -/

def read (t : FileTree) (p : FilePath) (disk : Disk := .sound) : Except FileError (List UInt8) :=
  unlessRefused (disk.reading t p) <|
    match t.look p with
    | .error e => .error e
    | .ok .directory => .error .isDirectory
    | .ok (.file bytes) => .ok bytes

/-- **The place at which a file can be written.** It may hold a file or nothing. -/
def locateFile (t : FileTree) (p : FilePath) : Except FileError Location :=
  match t.locate p with
  | .error e => .error e
  | .ok place =>
    if p.trailing ∨ t.node? place = some .directory then .error .isDirectory else .ok place

/-- The bytes of the file at a place, none if there is no file. -/
def bytesAt (t : FileTree) (place : Location) : List UInt8 :=
  match t.node? place with
  | some (.file bytes) => bytes
  | _ => []

/-- **Makes or replaces a file,** or begins to. -/
def write (t : FileTree) (p : FilePath) (bytes : List UInt8) (disk : Disk := .sound) :
    FileTree × Except FileError Unit :=
  match unlessRefused (disk.opening t p) (t.locateFile p) with
  | .error e => (t, .error e)
  | .ok place =>
    match disk.filling t p with
    | some (written, e) => (t.put place (.file (bytes.take written)), .error e)
    | none => (t.put place (.file bytes), .ok ())

/-- Makes a file or adds to its end. -/
def append (t : FileTree) (p : FilePath) (bytes : List UInt8) : Except FileError FileTree :=
  match t.locateFile p with
  | .error e => .error e
  | .ok place => .ok (t.put place (.file (t.bytesAt place ++ bytes)))

/-- **Gives a file another name,** instead of a file that has it. What is named by dots, or is the
root, cannot be given or taken away. -/
def rename (t : FileTree) (source target : FilePath) (disk : Disk := .sound) :
    Except FileError FileTree :=
  unlessRefused (disk.moving t source target) <|
    match t.locate source, t.locate target with
    | .error e, _ => .error e
    | _, .error e => .error e
    | .ok origin, .ok place =>
      if source.isNamed = false ∨ target.isNamed = false then .error .busy
      else
        match t.read source with
        | .error e => .error e
        | .ok bytes =>
          if target.trailing then .error .notDirectory
          else if t.node? place = some .directory then .error .isDirectory
          else .ok ((t.remove origin).put place (.file bytes))

/-! ## Directories -/

/-- Makes one directory, where there is nothing yet. -/
def makeDirectory (t : FileTree) (p : FilePath) (disk : Disk := .sound) :
    Except FileError FileTree :=
  unlessRefused (disk.making t p) <|
    match t.locate p with
    | .error e => .error e
    | .ok place =>
      if (t.node? place).isSome then .error .alreadyThere else .ok (t.put place .directory)

/-- **The outcome for one of several directories.** One that is there already will do. A file in
its place is in the way, and is reported as what it is: the thing itself, or on the way to what
was asked for, not a directory. -/
def settle (t : FileTree) (onTheWay : Bool) (p : FilePath) (disk : Disk := .sound) :
    FileTree × Except FileError Unit :=
  match t.makeDirectory p disk with
  | .ok made => (made, .ok ())
  | .error .alreadyThere =>
    match t.look p with
    | .ok .directory => (t, .ok ())
    | .ok (.file _) => (t, .error (if onTheWay then .notDirectory else .alreadyThere))
    | .error e => (t, .error e)
  | .error e => (t, .error e)

/-- Makes the first of a list of directories of which each next one holds the one before. -/
def makeFirst (t : FileTree) (disk : Disk) (onTheWay : Bool) :
    List FilePath → FileTree × Except FileError Unit
  | [] => (t, .ok ())
  | p :: above =>
    match t.makeDirectory p disk with
    | .error .notFound =>
      match makeFirst t disk true above with
      | (made, .ok ()) => made.settle onTheWay p disk
      | (made, .error e) => (made, .error e)
    | _ => t.settle onTheWay p disk

/-- **A directory with all that it needs above it.** -/
def makeDirectories (t : FileTree) (p : FilePath) (disk : Disk := .sound) :
    FileTree × Except FileError Unit :=
  t.makeFirst disk false p.ancestors

/-! ## Contents -/

/-- The text of a place below another one; a directory ends in a separator. -/
def relativeText (base : Location) (e : Location × Node) : String :=
  "/".intercalate (e.1.drop base.length) ++ (if e.2 = .directory then "/" else "")

/-- The places below a directory. -/
def below (t : FileTree) (base : Location) : List (Location × Node) :=
  t.nodes.filter fun e => base.isPrefixOf e.1 && e.1.length != base.length

end FileTree

end ChangeGate
