import ObstacleWatch.Yaml.Scalar

/-!
# YAML tags, anchors and directives

The parts of a text that say something about a node or a document without being one.
-/

namespace ObstacleWatch.Yaml

/-- A character that may stand in a resource identifier; inside a tag in full, commas and square
brackets may too. -/
def isUriChar (inFull : Bool) (c : Char) : Bool :=
  isWordChar c ||
    [';', '/', '?', ':', '@', '&', '=', '+', '$', '.', '!', '~', '*', '\x27', '(', ')'].contains
      c ||
    (inFull && [',', '[', ']'].contains c)

/-- How many octets follow a leading octet of a character in UTF-8. -/
def trailingOctets? (octet : Nat) : Option Nat :=
  if octet < 0x80 then some 0
  else if octet / 0x20 = 6 then some 1
  else if octet / 0x10 = 14 then some 2
  else if octet / 0x08 = 30 then some 3
  else none

/-- How many octets are still to follow after an octet, if it may stand there. -/
def owedAfter? (octet : Nat) : Nat → Option Nat
  | 0 => trailingOctets? octet
  | owed + 1 => if octet / 0x40 = 2 then some owed else none

/-- The longest resource identifier in front.  Escaped octets are kept as characters of the same
number; `owed` of them must follow to complete a character, and the next `skip` characters belong
to an escape already read. -/
def readUri (inFull : Bool) :
    Nat → Nat → List Char → Except SyntaxError (List Char × List Char)
  | owed, _, [] => if owed = 0 then .ok ([], []) else .error .badTag
  | owed, skip + 1, _ :: rest => readUri inFull owed skip rest
  | owed, 0, c :: rest =>
      if c = '%' then
        match hexNumber? (rest.take 2) with
        | some octet =>
            match owedAfter? octet owed with
            | some owed =>
                if rest.length < 2 then .error .badTag
                else do
                  let (tail, rest) ← readUri inFull owed 2 rest
                  return (Char.ofNat octet :: tail, rest)
            | none => .error .badTag
        | none => .error .badTag
      else if 0 < owed then .error .badTag
      else if isUriChar inFull c then do
        let (tail, rest) ← readUri inFull 0 0 rest
        return (c :: tail, rest)
      else .ok ([], c :: rest)

def readUri1 (inFull : Bool) (cs : List Char) : Except SyntaxError (List Char × List Char) := do
  let (uri, rest) ← readUri inFull 0 0 cs
  if uri = [] then throw .badTag
  return (uri, rest)

/-- An exclamation mark, word characters, and another mark if there is one. -/
def readHandle : List Char → Except SyntaxError (List Char × List Char)
  | '!' :: cs =>
      let word := cs.takeWhile isWordChar
      match cs.dropWhile isWordChar with
      | '!' :: rest => .ok ('!' :: word ++ ['!'], rest)
      | rest => .ok ('!' :: word, rest)
  | _ => .error .badTag

/-- A tag from its exclamation mark on: in full between angle brackets, with a handle between two
marks, or with the plain handle. -/
def readTag (cs : List Char) : Except SyntaxError (Token × List Char) :=
  match cs with
  | '!' :: '<' :: cs => do
      let (uri, rest) ← readUri1 true cs
      match rest with
      | '>' :: rest => return (.tag "" (String.ofList uri), rest)
      | _ => throw .badTag
  | _ => do
      let (handle, afterHandle) ← readHandle cs
      if 1 < handle.length ∧ handle.getLast? = some '!' then
        let (suffix, rest) ← readUri1 false afterHandle
        return (.tag (String.ofList handle) (String.ofList suffix), rest)
      else
        let (more, rest) ← readUri false 0 0 afterHandle
        match handle.drop 1 ++ more with
        | [] | '\x00' :: _ => return (.tag "" "!", rest)
        | suffix => return (.tag "!" (String.ofList suffix), rest)

/-- A name of word characters with a gap or a certain indicator behind it. -/
def readName (cs : List Char) : Except SyntaxError (String × List Char) :=
  let name := cs.takeWhile isWordChar
  let rest := cs.dropWhile isWordChar
  let ends := atGap rest ||
    (rest.head?.any fun c => ['?', ':', ',', ']', '\x7d', '%', '@', '\x60'].contains c)
  if name.isEmpty || !ends then .error .badAnchor else .ok (String.ofList name, rest)

def readVersionNumber (cs : List Char) : Except SyntaxError (Nat × List Char) :=
  let ds := cs.takeWhile Char.isDigit
  if ds.isEmpty || 9 < ds.length then .error .badDirective
  else .ok (digitsValue ds, cs.dropWhile Char.isDigit)

def readVersion (cs : List Char) : Except SyntaxError (Token × List Char) := do
  let (major, cs) ← readVersionNumber cs
  match cs with
  | '.' :: cs =>
      let (minor, cs) ← readVersionNumber cs
      return (.versionDirective major minor, cs)
  | _ => throw .badDirective

def readShorthand (cs : List Char) : Except SyntaxError (Token × List Char) := do
  let (handle, cs) ← readHandle cs
  if handle ≠ ['!'] ∧ handle.getLast? ≠ some '!' then throw .badTag
  if !(cs.head?.any isGapChar) then throw .badDirective
  let (expansion, cs) ← readUri1 true (cs.dropWhile isGapChar)
  if !atGap cs then throw .badDirective
  return (.tagDirective (String.ofList handle) (String.ofList expansion), cs)

/-- A directive behind its percent sign, up to the end of its line. -/
def readDirective (cs : List Char) : Except SyntaxError (Token × List Char) := do
  let name := cs.takeWhile isWordChar
  let afterName := cs.dropWhile isWordChar
  if name.isEmpty || !atGap afterName then throw .badDirective
  let argument := afterName.dropWhile isGapChar
  let (token, rest) ←
    if name = ['Y', 'A', 'M', 'L'] then readVersion argument
    else if name = ['T', 'A', 'G'] then readShorthand argument
    else throw .badDirective
  let (rest, _) ← skipLineEnd .badDirective rest
  return (token, rest)

end ObstacleWatch.Yaml
