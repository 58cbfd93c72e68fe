import ChangeGate.Files.Tree
/-!
# Home directories

The directory below which state and logs are kept is the one that the caller names, else the one
that the environment names, else a directory in the user's home. It is made if it is not there.
-/

namespace ChangeGate.Home

/-- The name of the directory in the user's home. -/
def defaultName : String := ".appcompat"

/-- **The directory to use.** An empty name counts as none, and a name that is given is kept as it
is. -/
def choose (option environment : Option String) (userHome : String) : String :=
  match option.filter (· ≠ ""), environment.filter (· ≠ "") with
  | some home, _ => home
  | none, some home => home
  | none, none => ((FilePath.ofText userHome).join defaultName).text

/-- **The directory to use, made if need be.** Whatever is there under its name will do. -/
def resolve (t : FileTree) (option environment : Option String) (userHome : String) :
    FileTree × Except FileError String :=
  let home := choose option environment userHome
  if t.isPresent (.ofText home) then (t, .ok home)
  else
    match t.makeDirectories (.ofText home) with
    | (made, .ok ()) => (made, .ok home)
    | (made, .error e) => (made, .error e)

end ChangeGate.Home
