import DockConsole.Text

/-!
Paths of log files, without the names that say nothing.

The name of a file is taken from the working directory unless it starts with a slash. Two slashes at
the start and no third one are kept: what they mean is left open, though here it is the root as well.
-/

namespace DockConsole.Log

/-- Why a file cannot be opened for writing. -/
inductive OpenError where
  /-- No file is named. -/
  | unnamed
  /-- No path holds a NUL. -/
  | nul
  | missing
  | isDirectory
  | notDirectory
  | tooLong
deriving DecidableEq, Repr

/-- The names on the way to a file. A leading `/` or `//` stands for the root. -/
abbrev Path := List Text

namespace Path

def root : Text := ['/']

def otherRoot : Text := ['/', '/']

def isRoot (name : Text) : Bool := name = root || name = otherRoot

def up : Text := ['.', '.']

/-- One more name after a path given from its end. -/
def follow (path : Path) (name : Text) : Path :=
  if name.isEmpty ∨ name = ['.'] then path
  else if name = up then
    match path with
    | [] => [up]
    | last :: rest => if isRoot last then path else if last = up then up :: path else rest
  else name :: path

/-- Where the names of a path start from. -/
def base : Text → Path
  | '/' :: '/' :: '/' :: _ => [root]
  | '/' :: '/' :: _ => [otherRoot]
  | '/' :: _ => [root]
  | _ => []

def ofText (s : Text) : Path := ((s.pieces '/').foldl follow (base s)).reverse

/-- A name seen from a directory. A name that starts with a slash is the same from everywhere. -/
def join (directory name : Text) : Text :=
  if name.head? = some '/' then name
  else if directory.isEmpty ∨ directory.getLast? = some '/' then directory ++ name
  else directory ++ '/' :: name

/-- The path of a file by its name, for those who work in the given directory. -/
def absolute (directory name : Text) : Path := ofText (join directory name)

def text : Path → Text
  | [] => []
  | name :: rest =>
    if isRoot name then name ++ List.intercalate ['/'] rest
    else List.intercalate ['/'] (name :: rest)

/-- Whether the path stays in the working directory. -/
def isInside : Path → Bool
  | [] => true
  | name :: _ => !isRoot name && name ≠ up

/-- The same place, seen from the one root that there is. -/
def place : Path → Path
  | [] => []
  | name :: rest => if isRoot name then root :: rest else name :: rest

/-- The number of bytes of a name. -/
def bytes (name : Text) : Nat := name.foldr (fun c n => c.utf8Size + n) 0

/-- What may stand at a path already. -/
inductive Entry where
  | file
  | directory
deriving DecidableEq, Repr

/-- Goes on from `done` to the file at the end of a path. All names on the way have to be those of
directories. -/
def resolve (entry : Path → Option Entry) (done : Path) : Path → Except OpenError Unit
  | [] => .error .isDirectory
  | name :: rest =>
    let here := done ++ [name]
    if 255 < bytes name then .error .tooLong
    else
      match entry here with
      | some .directory => resolve entry here rest
      | some .file => if rest.isEmpty then .ok () else .error .notDirectory
      | none => if rest.isEmpty then .ok () else .error .missing

/-- What keeps a file at a path from being opened, if anything. -/
def check (entry : Path → Option Entry) (p : Path) : Except OpenError Unit :=
  if p.any (·.contains '\x00') then .error .nul
  else if 4095 < bytes p.text then .error .tooLong
  else resolve entry [] p

end Path

end DockConsole.Log
