import ObstacleWatch.Files.Tree

/-!
# Making directories and growing files

A directory is made together with those above it.  A file that is opened for appending is created if
it is missing; what it holds is never changed, only added to.  A device can be opened like a file.
-/

namespace ObstacleWatch.FileTree

/-- Makes one directory in an existing one; whatever has its name already stands in the way. -/
def makeDirectory (t : FileTree) (path : String) : Except FileError FileTree := do
  match ← t.resolve path false with
  | .vacant location => return t.put location .directory
  | .found _ _ => throw .alreadyExists

/-- Makes a directory and those above it, as far as they are missing.  Every step up takes a piece
off the path, so the number of pieces bounds the steps. -/
def makeDirectoriesWithin : Nat → FileTree → String → Except FileError FileTree
  | fuel, t, path =>
      if path.isEmpty then .ok t
      else
        match t.makeDirectory path with
        | .ok t => .ok t
        | .error .notFound =>
            match fuel, Path.parent? path with
            | fuel + 1, some parent => do
                let t ← makeDirectoriesWithin fuel t parent
                match t.makeDirectory path with
                | .ok t => return t
                | .error e => if t.isDirectory path then return t else throw e
            | _, _ => .error .notFound
        | .error e => if t.isDirectory path then .ok t else .error e

/-- Makes a directory and those above it, as far as they are missing. -/
def makeDirectories (t : FileTree) (path : String) : Except FileError FileTree :=
  makeDirectoriesWithin (Path.pieces path).length t path

/-- Opens a file for appending: the tree with the file in it, and the place of the file. -/
def openForAppend (t : FileTree) (path : String) : Except FileError (FileTree × Location) := do
  if path.toList.getLast? == some '/' then throw .isDirectory
  match ← t.resolve path true with
  | .found location (.file _) | .found location (.device _) => return (t, location)
  | .found _ _ => throw .isDirectory
  | .vacant location => return (t.put location (.file []), location)

def append (t : FileTree) (location : Location) (octets : List UInt8) : Except FileError FileTree :=
  match t.entry? location with
  | some (.file before) => .ok (t.put location (.file (before ++ octets)))
  | some (.device .sink) => .ok t
  | some (.device .full) => .error .noSpace
  | some .directory => .error .isDirectory
  | some (.link _) | none => .error .notFound

end ObstacleWatch.FileTree
