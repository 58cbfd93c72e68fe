/-!
# Paths

A path is a list of parts, which may be `.` or `..`, from the root or from the working directory.
A separator at its end says that a directory is meant. `FilePath.normalize` resolves the dots
without looking at any directory, and `FilePath.join` does so for a text below another path.
-/

namespace ChangeGate

/-- **A path.** No part is empty: separators in a row count as one. -/
structure FilePath where
  absolute : Bool
  parts : List String
  trailing : Bool
deriving DecidableEq

namespace FilePath

/-- The parts of a text between separators, without the empty ones. -/
def split (cs : List Char) : List String :=
  ((cs.splitOn '/').filter (· ≠ [])).map String.ofList

def ofText (s : String) : FilePath :=
  let cs := s.toList
  { absolute := cs.head? = some '/', parts := split cs, trailing := cs.getLast? = some '/' }

/-- **A path as text.** Without parts it is the root or the working directory. -/
def text (p : FilePath) : String :=
  if p.parts = [] then
    if p.absolute then "/" else if p.trailing then "./" else "."
  else
    (if p.absolute then "/" else "") ++ "/".intercalate p.parts ++ (if p.trailing then "/" else "")

/-- The parts behind `done`, which is in reverse, with the dots resolved. A relative path may
start with parts that lead up. -/
def resolve (absolute : Bool) (done : List String) : List String → List String
  | [] => done.reverse
  | part :: rest =>
    if part = "." then resolve absolute done rest
    else if part = ".." then
      match done with
      | [] => resolve absolute (if absolute then [] else [".."]) rest
      | last :: before =>
        if last = ".." then resolve absolute (".." :: done) rest
        else resolve absolute before rest
    else resolve absolute (part :: done) rest

/-- **Without dots,** but for leading ones that lead up. -/
def normalize (p : FilePath) : FilePath :=
  { p with parts := resolve p.absolute [] p.parts }

/-- **A path below another one,** whether or not it starts at a root of its own. -/
def append (p q : FilePath) : FilePath where
  absolute := p.absolute
  parts := p.parts ++ q.parts
  trailing := if q.parts = [] ∧ ¬ q.trailing then p.trailing else q.trailing

/-- **The path that a text names below another one,** with all dots resolved. -/
def join (p : FilePath) (text : String) : FilePath :=
  (p.append (ofText text)).normalize

/-- **The path with an ending put to its text.** Behind a separator the ending is a part of its
own; where there is no part it goes to the dot that stands for the working directory. -/
def withSuffix (p : FilePath) (suffix : String) : FilePath :=
  if p.trailing then { p with parts := p.parts ++ [suffix], trailing := false }
  else
    match p.parts.getLast? with
    | some last => { p with parts := p.parts.dropLast ++ [last ++ suffix] }
    | none => { p with parts := [if p.absolute then suffix else "." ++ suffix] }

/-- **Whether a path ends in a name.** The root does not, and dots are no name. -/
def isNamed (p : FilePath) : Bool :=
  match p.parts.getLast? with
  | none => false
  | some last => decide (last ≠ "." ∧ last ≠ "..")

/-- The path of the directory that holds it. -/
def directory (p : FilePath) : FilePath :=
  { p with parts := p.parts.dropLast, trailing := false }

/-- **The path and all on the way up to it,** up to the last one that has a part. A separator at
the end is what goes first. -/
def ancestors (p : FilePath) : List FilePath :=
  (if p.trailing then [p] else []) ++
    (List.range p.parts.length).reverse.map fun n =>
      { p with parts := p.parts.take (n + 1), trailing := false }

end FilePath

end ChangeGate
