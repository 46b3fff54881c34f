import ObstacleWatch.Number.Decimal

/-!
# YAML tokens

The characters YAML tells apart, positions in a text, and the tokens a text is made of.
-/

namespace ObstacleWatch.Yaml

inductive SyntaxError where
  | forbiddenCharacter
  | tabInIndentation
  | unexpectedCharacter
  | keyWithoutValue
  | misplacedEntry
  | misplacedKey
  | misplacedValue
  | badDirective
  | badAnchor
  | badTag
  | badBlockHeader
  | badEscape
  | unclosedQuote
  | markerInQuote
  | colonInFlow
  | unexpectedToken
  | unknownTagHandle
  | unknownAnchor
  | severalDocuments
  deriving Repr, DecidableEq

def isAllowed (c : Char) : Bool :=
  let n := c.toNat
  n == 0x09 || n == 0x0a || n == 0x0d || n == 0x85 || (0x20 ≤ n && n ≤ 0x7e) ||
    (0xa0 ≤ n && n ≤ 0xd7ff) || (0xe000 ≤ n && n ≤ 0xfffd) || 0x10000 ≤ n

def isGapChar (c : Char) : Bool :=
  c = ' ' || c = '\t'

def isBreak (c : Char) : Bool :=
  c = '\r' || c = '\n' || c = '\x85' || c = '\u2028' || c = '\u2029'

/-- The character that a line break stands for in a scalar. -/
def breakChar (c : Char) : Char :=
  if c = '\u2028' || c = '\u2029' then c else '\n'

def isWordChar (c : Char) : Bool :=
  c.isAlphanum || c = '-' || c = '_'

/-- The text ends or its next character is a line break. -/
def atBreak : List Char → Bool
  | [] => true
  | c :: _ => isBreak c

/-- The text ends or its next character is a space, a tab or a line break. -/
def atGap : List Char → Bool
  | [] => true
  | c :: _ => isGapChar c || isBreak c

/-- A document marker, three hyphens or three points with a gap behind. -/
def isMarker (sign : Char) : List Char → Bool
  | a :: b :: c :: rest => a = sign && b = sign && c = sign && atGap rest
  | _ => false

def isDocumentMarker (cs : List Char) : Bool :=
  isMarker '-' cs || isMarker '.' cs

structure Position where
  /-- The octets before it, in UTF-8. -/
  index : Nat
  /-- The lines before it. -/
  line : Nat
  /-- The characters before it on its line. -/
  column : Nat
  deriving Repr, DecidableEq

namespace Position

def next (p : Position) (c : Char) : Position :=
  ⟨p.index + c.utf8Size, p.line, p.column + 1⟩

def advance (p : Position) (cs : List Char) : Position :=
  cs.foldl next p

def newLine (p : Position) (c : Char) : Position :=
  ⟨p.index + c.utf8Size, p.line + 1, 0⟩

/-- The position behind the first half of a line break of two characters. -/
def halfBreak (p : Position) : Position :=
  ⟨p.index + 1, p.line, p.column⟩

end Position

/-- The first half of a line break of two characters. -/
def isHalfBreak (c : Char) (rest : List Char) : Bool :=
  c = '\r' && rest.head? == some '\n'

inductive ScalarStyle where
  | plain
  | singleQuoted
  | doubleQuoted
  | literal
  | folded
  deriving Repr, DecidableEq

/-- A token.  A tag is a handle, empty for a tag in full, and a suffix. -/
inductive Token where
  | versionDirective (major minor : Nat)
  | tagDirective (handle expansion : String)
  | documentStart
  | documentEnd
  | streamEnd
  | blockSequenceStart
  | blockMappingStart
  | blockEnd
  | flowSequenceStart
  | flowSequenceEnd
  | flowMappingStart
  | flowMappingEnd
  | blockEntry
  | flowEntry
  | key
  | value
  | alias (name : String)
  | anchor (name : String)
  | tag (handle suffix : String)
  | scalar (style : ScalarStyle) (text : String)
  deriving Repr, DecidableEq

end ObstacleWatch.Yaml
