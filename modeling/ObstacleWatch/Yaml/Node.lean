import ObstacleWatch.Yaml.Lexer

/-!
# YAML documents

A document is a tree of scalars, sequences and mappings.  A node may carry an anchor and a tag, and
an alias stands for an anchored node.  Anchors are kept as numbers: the number of an anchored node
is the count of different anchor names before it, unless its own name is among them, when it is
still that count.  An alias stands for the last node of the document with its number.
-/

namespace ObstacleWatch.Yaml

/-- The number of an anchor, and a tag in full. -/
structure Properties where
  anchor : Option Nat
  tag : Option String
  deriving Repr

inductive Node where
  | alias (anchor : Nat)
  | scalar (properties : Properties) (style : ScalarStyle) (text : String)
  | sequence (properties : Properties) (items : List Node)
  | mapping (properties : Properties) (entries : List (Node × Node))
  deriving Repr

namespace Node

/-- The parser's state: the tokens to come, what tag handles stand for, and the numbers of the
anchor names so far. -/
structure Reading where
  tokens : List Token
  handles : List (String × String)
  anchors : List (String × Nat)

abbrev Reader := StateT Reading (Except SyntaxError)

def peek : Reader Token := do
  return (← get).tokens.head?.getD .streamEnd

def skip : Reader Unit :=
  modify fun r => { r with tokens := r.tokens.drop 1 }

def anchorNumber (name : String) : Reader Nat := do
  let r ← get
  let number := r.anchors.length
  set { r with anchors := (name, number) :: r.anchors.filter fun a => a.1 != name }
  return number

def aliasNumber (name : String) : Reader Nat := do
  match (← get).anchors.lookup name with
  | some number => return number
  | none => throw .unknownAnchor

/-- A part of a tag; an escaped zero octet ends it early. -/
def tagPart (s : String) : String :=
  String.ofList (s.toList.takeWhile (· ≠ '\x00'))

def fullTag (handle suffix : String) : Reader String := do
  if handle.isEmpty then return tagPart suffix
  match (← get).handles.lookup handle with
  | some expansion => return tagPart expansion ++ tagPart suffix
  | none => throw .unknownTagHandle

def readAnchor : Reader (Option String) := do
  match ← peek with
  | .anchor name =>
      skip
      return some name
  | _ => return none

def readTag : Reader (Option (String × String)) := do
  match ← peek with
  | .tag handle suffix =>
      skip
      return some (handle, suffix)
  | _ => return none

/-- The anchor and tag of a node, in either order. -/
def readProperties : Reader Properties := do
  let early ← readAnchor
  let tag ← readTag
  let late ← if early.isNone then readAnchor else pure none
  let tag ←
    match tag with
    | some (handle, suffix) => some <$> fullTag handle suffix
    | none => pure none
  let anchor ←
    match early.or late with
    | some name => some <$> anchorNumber name
    | none => pure none
  return ⟨anchor, tag⟩

def empty (properties : Properties) : Node :=
  .scalar properties .plain ""

def absent : Node :=
  empty ⟨none, none⟩

mutual

/-- A node; the count bounds the depth of the recursion. -/
def readNode (fuel : Nat) (inBlock mayBeFlat : Bool) : Reader Node := do
  match fuel with
  | 0 => throw .unexpectedToken
  | fuel + 1 =>
      if let .alias name ← peek then
        skip
        return .alias (← aliasNumber name)
      let properties ← readProperties
      match ← peek with
      | .scalar style text =>
          skip
          return .scalar properties style text
      | .flowSequenceStart =>
          skip
          return .sequence properties (← readFlowItems fuel true)
      | .flowMappingStart =>
          skip
          return .mapping properties (← readFlowEntries fuel true)
      | .blockEntry =>
          if mayBeFlat then return .sequence properties (← readFlatItems fuel)
          else absentOrFail properties
      | .blockSequenceStart =>
          if inBlock then
            skip
            return .sequence properties (← readBlockItems fuel)
          else absentOrFail properties
      | .blockMappingStart =>
          if inBlock then
            skip
            return .mapping properties (← readBlockEntries fuel)
          else absentOrFail properties
      | _ => absentOrFail properties

/-- A node that has nothing but an anchor or a tag. -/
def absentOrFail (properties : Properties) : Reader Node := do
  if properties.anchor.isSome || properties.tag.isSome then return empty properties
  else throw .unexpectedToken

/-- A node inside a block, unless one of the given tokens says that there is none. -/
def readOrAbsent (fuel : Nat) (inBlock mayBeFlat : Bool) (ends : List Token) : Reader Node := do
  match fuel with
  | 0 => throw .unexpectedToken
  | fuel + 1 =>
      if ends.contains (← peek) then return absent else readNode fuel inBlock mayBeFlat

/-- The entries of a sequence that stands deeper than the block around it. -/
def readBlockItems (fuel : Nat) : Reader (List Node) := do
  match fuel with
  | 0 => throw .unexpectedToken
  | fuel + 1 =>
      match ← peek with
      | .blockEntry =>
          skip
          let item ← readOrAbsent fuel true false [.blockEntry, .blockEnd]
          return item :: (← readBlockItems fuel)
      | .blockEnd =>
          skip
          return []
      | _ => throw .unexpectedToken

/-- The entries of a sequence that stands as deep as the mapping around it. -/
def readFlatItems (fuel : Nat) : Reader (List Node) := do
  match fuel with
  | 0 => throw .unexpectedToken
  | fuel + 1 =>
      match ← peek with
      | .blockEntry =>
          skip
          let item ← readOrAbsent fuel true false [.blockEntry, .key, .value, .blockEnd]
          return item :: (← readFlatItems fuel)
      | _ => return []

def readBlockEntries (fuel : Nat) : Reader (List (Node × Node)) := do
  match fuel with
  | 0 => throw .unexpectedToken
  | fuel + 1 =>
      match ← peek with
      | .key =>
          skip
          let key ← readOrAbsent fuel true true [.key, .value, .blockEnd]
          let value ← readBlockValue fuel
          return (key, value) :: (← readBlockEntries fuel)
      | .blockEnd =>
          skip
          return []
      | _ => throw .unexpectedToken

/-- The value of an entry in a block, if there is one. -/
def readBlockValue (fuel : Nat) : Reader Node := do
  match fuel with
  | 0 => throw .unexpectedToken
  | fuel + 1 =>
      match ← peek with
      | .value =>
          skip
          readOrAbsent fuel true true [.key, .value, .blockEnd]
      | _ => return absent

def readFlowItems (fuel : Nat) (first : Bool) : Reader (List Node) := do
  match fuel with
  | 0 => throw .unexpectedToken
  | fuel + 1 =>
      if (← peek) = .flowSequenceEnd then
        skip
        return []
      if !first then readComma
      match ← peek with
      | .flowSequenceEnd =>
          skip
          return []
      | .key =>
          skip
          let key ← readOrAbsent fuel false false [.value, .flowEntry, .flowSequenceEnd]
          let value ← readFlowValue fuel [.flowEntry, .flowSequenceEnd]
          return .mapping ⟨none, none⟩ [(key, value)] :: (← readFlowItems fuel false)
      | _ =>
          let item ← readNode fuel false false
          return item :: (← readFlowItems fuel false)

def readComma : Reader Unit := do
  if (← peek) = .flowEntry then skip else throw .unexpectedToken

/-- The value of an entry between brackets or braces, if there is one. -/
def readFlowValue (fuel : Nat) (ends : List Token) : Reader Node := do
  match fuel with
  | 0 => throw .unexpectedToken
  | fuel + 1 =>
      match ← peek with
      | .value =>
          skip
          readOrAbsent fuel false false ends
      | _ => return absent

def readFlowEntries (fuel : Nat) (first : Bool) : Reader (List (Node × Node)) := do
  match fuel with
  | 0 => throw .unexpectedToken
  | fuel + 1 =>
      if (← peek) = .flowMappingEnd then
        skip
        return []
      if !first then readComma
      match ← peek with
      | .flowMappingEnd =>
          skip
          return []
      | .key =>
          skip
          let key ← readOrAbsent fuel false false [.value, .flowEntry, .flowMappingEnd]
          let value ← readFlowValue fuel [.flowEntry, .flowMappingEnd]
          return (key, value) :: (← readFlowEntries fuel false)
      | _ =>
          let key ← readNode fuel false false
          return (key, absent) :: (← readFlowEntries fuel false)

end

def usualHandles : List (String × String) :=
  [("!", "!"), ("!!", "tag:yaml.org,2002:")]

/-- The handles that directives define; a version may be given once and must be a known one, and no
handle may be given twice. -/
def readDirectives : Nat → Bool → Reader Unit
  | 0, _ => return ()
  | fuel + 1, versionSeen => do
      match ← peek with
      | .versionDirective major minor =>
          if versionSeen || major ≠ 1 || (minor ≠ 1 && minor ≠ 2) then throw .badDirective
          skip
          readDirectives fuel true
      | .tagDirective handle expansion =>
          let r ← get
          if r.handles.any fun h => h.1 == handle then throw .badDirective
          set { r with handles := (handle, expansion) :: r.handles }
          skip
          readDirectives fuel versionSeen
      | _ => return ()

/-- Passes over marks of the end of a document. -/
def skipDocumentEnds (tokens : List Token) : List Token :=
  tokens.dropWhile fun t => t = .documentEnd

def readMarkedDocument (fuel : Nat) : Reader Node := do
  readDirectives fuel false
  if (← peek) ≠ .documentStart then throw .unexpectedToken
  skip
  modify fun r => { r with handles := r.handles ++ usualHandles }
  match ← peek with
  | .versionDirective _ _ | .tagDirective _ _ | .documentStart | .documentEnd | .streamEnd =>
      return absent
  | _ => readNode fuel true false

def readDocument (fuel : Nat) : Reader (Option Node) := do
  match ← peek with
  | .streamEnd => return none
  | .versionDirective _ _ | .tagDirective _ _ | .documentStart => some <$> readMarkedDocument fuel
  | _ =>
      modify fun r => { r with handles := usualHandles }
      some <$> readNode fuel true false

/-- The only document that tokens spell, if there is any. -/
def ofTokens (tokens : List Token) : Except SyntaxError (Option Node) := do
  let (root, r) ← (readDocument (2 * tokens.length + 2)).run ⟨tokens, [], []⟩
  if (skipDocumentEnds r.tokens).head? = some .streamEnd then return root
  throw .severalDocuments

/-- The only document of a text, if there is any. -/
def ofChars (cs : List Char) : Except SyntaxError (Option Node) := do
  ofTokens (← Token.ofChars cs)

mutual

/-- The last node of a tree with the number of an anchor. -/
def lastAnchored? (anchor : Nat) : Node → Option Node
  | .alias _ => none
  | .scalar p style text => if p.anchor = some anchor then some (.scalar p style text) else none
  | .sequence p items =>
      match lastInItems? anchor items with
      | some n => some n
      | none => if p.anchor = some anchor then some (.sequence p items) else none
  | .mapping p entries =>
      match lastInEntries? anchor entries with
      | some n => some n
      | none => if p.anchor = some anchor then some (.mapping p entries) else none

/-- The last node of a list of trees with the number of an anchor. -/
def lastInItems? (anchor : Nat) : List Node → Option Node
  | [] => none
  | n :: ns =>
      match lastInItems? anchor ns with
      | some m => some m
      | none => lastAnchored? anchor n

/-- The last node of a list of entries with the number of an anchor. -/
def lastInEntries? (anchor : Nat) : List (Node × Node) → Option Node
  | [] => none
  | (k, v) :: es =>
      match lastInEntries? anchor es with
      | some m => some m
      | none =>
          match lastAnchored? anchor v with
          | some m => some m
          | none => lastAnchored? anchor k

end

end Node

end ObstacleWatch.Yaml
