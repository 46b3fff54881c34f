import ObstacleWatch.Files.Path

/-!
# Trees of files

A tree of files says for every place what is there: a file with its octets, a directory, a link to a
path, or a device, which keeps nothing of what is written to it.  A place is given by the names that
lead to it from the top.  Following a path means taking its steps one by one; a link on the way is
replaced by the path it holds, up to a number of links that no sensible path needs.

Names are texts: an entry whose name is not valid UTF-8 is not in a tree.  There are no rights
either, so every directory can be listed and every file opened; what cannot be read of a disk is in
no tree of it.
-/

namespace ObstacleWatch

/-- The names that lead to a place from the top of the tree. -/
abbrev Location := List String

inductive Device where
  /-- Takes whatever is written to it. -/
  | sink
  /-- Has no space for anything. -/
  | full
  deriving Repr, DecidableEq

inductive FileEntry where
  | file (octets : List UInt8)
  | directory
  | link (target : String)
  | device (device : Device)
  deriving Repr, DecidableEq

inductive FileError where
  | notFound
  | alreadyExists
  | notDirectory
  | isDirectory
  | noSpace
  | nameTooLong
  | tooManyLinks
  | nulInPath
  | notText
  deriving Repr, DecidableEq

namespace FileError

def message : FileError → String
  | notFound => "No such file or directory (os error 2)"
  | alreadyExists => "File exists (os error 17)"
  | notDirectory => "Not a directory (os error 20)"
  | isDirectory => "Is a directory (os error 21)"
  | noSpace => "No space left on device (os error 28)"
  | nameTooLong => "File name too long (os error 36)"
  | tooManyLinks => "Too many levels of symbolic links (os error 40)"
  | nulInPath => "file name contained an unexpected NUL byte"
  | notText => "stream did not contain valid UTF-8"

end FileError

/-- A tree of files, with the place where relative paths start.  Of several entries for one place
the first counts. -/
structure FileTree where
  entries : List (Location × FileEntry)
  here : Location

/-- What a path leads to: something that exists, or a free name in a directory. -/
inductive PathTarget where
  | found (location : Location) (entry : FileEntry)
  | vacant (location : Location)
  deriving Repr, DecidableEq

namespace FileTree

/-- What is at a place; the top is a directory. -/
def entry? (t : FileTree) (location : Location) : Option FileEntry :=
  if location = [] then some .directory else t.entries.lookup location

/-- Puts an entry at a place, instead of what was there. -/
def put (t : FileTree) (location : Location) (entry : FileEntry) : FileTree :=
  { t with entries := (location, entry) :: t.entries.filter fun e => decide (e.1 ≠ location) }

/-- Makes sure of the directories from a place on along names. -/
def withDirectories (t : FileTree) (location : Location) : List String → FileTree
  | [] => t
  | name :: names =>
      let child := location ++ [name]
      (if (t.entry? child).isSome then t else t.put child .directory).withDirectories child names

/-- Puts an entry at a place and makes sure of the directories above it. -/
def plant (t : FileTree) (location : Location) (entry : FileEntry) : FileTree :=
  (t.withDirectories [] location.dropLast).put location entry

def longestName : Nat := 255

def longestPath : Nat := 4095

def mostLinks : Nat := 40

/-- Takes the steps of a path from a place.  `onLink` goes on where a link is met, at the steps of
its path and those behind it. -/
def descend (t : FileTree) (onLink : List String → Location → Except FileError PathTarget)
    (followLast : Bool) : List String → Location → Except FileError PathTarget
  | [], here => .ok (.found here .directory)
  | "." :: rest, here => t.descend onLink followLast rest here
  | ".." :: rest, here => t.descend onLink followLast rest here.dropLast
  | name :: rest, here =>
      let child := here ++ [name]
      if longestName < name.utf8ByteSize then .error .nameTooLong
      else
        match t.entry? child with
        | some .directory => t.descend onLink followLast rest child
        | some (.file octets) =>
            if rest = [] then .ok (.found child (.file octets)) else .error .notDirectory
        | some (.device device) =>
            if rest = [] then .ok (.found child (.device device)) else .error .notDirectory
        | some (.link target) =>
            if rest = [] ∧ followLast = false then .ok (.found child (.link target))
            else if target.isEmpty then .error .notFound
            else
              onLink (Path.steps target ++ rest) (if Path.isAbsolute target then [] else here)
        | none => if rest = [] then .ok (.vacant child) else .error .notFound

/-- Takes steps from a place, through a number of links at most. -/
def travel (t : FileTree) (followLast : Bool) :
    Nat → List String → Location → Except FileError PathTarget
  | 0 => t.descend (fun _ _ => .error .tooManyLinks) followLast
  | links + 1 => t.descend (t.travel followLast links) followLast

/-- What a path leads to; a link at its end may be meant itself. -/
def resolve (t : FileTree) (path : String) (followLast : Bool) : Except FileError PathTarget :=
  if path.toList.contains '\x00' then .error .nulInPath
  else if path.isEmpty then .error .notFound
  else if longestPath < path.utf8ByteSize then .error .nameTooLong
  else
    t.travel followLast mostLinks (Path.steps path) (if Path.isAbsolute path then [] else t.here)

/-- The place and entry that a path leads to through all links. -/
def find? (t : FileTree) (path : String) : Option (Location × FileEntry) :=
  match t.resolve path true with
  | .ok (.found location entry) => some (location, entry)
  | _ => none

def contains (t : FileTree) (path : String) : Bool :=
  (t.find? path).isSome

def isDirectory (t : FileTree) (path : String) : Bool :=
  match t.find? path with
  | some (_, .directory) => true
  | _ => false

/-- The octets of the file that a path leads to; a device is empty, and a directory cannot be
read. -/
def read (t : FileTree) (path : String) : Except FileError (List UInt8) :=
  match t.resolve path true with
  | .ok (.found _ (.file octets)) => .ok octets
  | .ok (.found _ (.device _)) => .ok []
  | .ok (.found _ _) => .error .isDirectory
  | .ok (.vacant _) => .error .notFound
  | .error e => .error e

def namesIn (t : FileTree) (location : Location) : List String :=
  (t.entries.filterMap fun e => childName? location e.1).eraseDups
where
  /-- The name of a place in the directory right above it. -/
  childName? : Location → Location → Option String
    | [], [name] => some name
    | a :: parent, b :: child => if a = b then childName? parent child else none
    | _, _ => none

end FileTree

end ObstacleWatch
