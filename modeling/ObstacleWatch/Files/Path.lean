import ObstacleWatch.Text.Case

/-!
# Paths

A path is a text: names between slashes, where one point stands for staying and two points for going
up.  Slashes in a row count as one.  A path that ends in a slash or a single point asks for a
directory.  The octets of a path that are not valid UTF-8 spell no text, and such a path has no
counterpart here; nor has an extension that is no text.
-/

namespace ObstacleWatch.Path

def pieces (path : String) : List String :=
  (path.toList.splitOn '/').map String.ofList

/-- A piece that leads somewhere; the first piece of a path may be a single point. -/
def isStep (piece : String) : Bool :=
  !piece.isEmpty && piece != "."

/-- The path starts at the top of the tree. -/
def isAbsolute (path : String) : Bool :=
  path.toList.head? == some '/'

/-- The path can only be the one of a directory. -/
def wantsDirectory (path : String) : Bool :=
  match (pieces path).getLast? with
  | some piece => !isStep piece
  | none => false

/-- The steps along a path; a single point at the end stands for the wish for a directory. -/
def steps (path : String) : List String :=
  (pieces path).filter isStep ++ (if wantsDirectory path then ["."] else [])

/-- The pieces up to the last that leads somewhere. -/
def trimPieces (ps : List String) : List String :=
  (ps.reverse.dropWhile fun p => !isStep p).reverse

/-- The path of the directory that holds the last name; the empty path stands for the place where
relative paths start, and a path without a name has no such directory. -/
def parent? (path : String) : Option String :=
  match pieces path with
  | [] => none
  | first :: rest =>
      match trimPieces rest with
      | [] => if first.isEmpty then none else some ""
      | names =>
          match first, trimPieces names.dropLast with
          | "", [] => some "/"
          | first, names => some ("/".intercalate (first :: names))

def name? (path : String) : Option String :=
  match pieces path with
  | [] => none
  | first :: rest =>
      match (trimPieces (first :: rest)).getLast? with
      | some ".." => none
      | last => last

/-- What follows the last point of a name, unless nothing stands before that point. -/
def extensionOfName? (name : String) : Option String :=
  let reversed := name.toList.reverse
  match reversed.dropWhile (· ≠ '.') with
  | _ :: _ :: _ => some (String.ofList (reversed.takeWhile (· ≠ '.')).reverse)
  | _ => none

def extension? (path : String) : Option String :=
  (name? path).bind extensionOfName?

/-- The extension is the given one, whatever the case of its ASCII letters. -/
def hasExtension (extension : String) (path : String) : Bool :=
  match extension? path with
  | some e => foldCase e == foldCase extension
  | none => false

def join (path name : String) : String :=
  if path.isEmpty || path.toList.getLast? == some '/' then path ++ name else path ++ "/" ++ name

end ObstacleWatch.Path
