import ObstacleWatch.Yaml.Tag

/-!
# From YAML text to tokens

The lexer keeps the columns of the open blocks and, for every level of brackets, the place where a
key without a mark of its own may have started.  When the colon of such a key comes, the key's token
is put in front of it, together with the start of a mapping if the key stands deeper than the block
around it.  A key of this kind must end on its line, within 1024 octets.
-/

namespace ObstacleWatch.Yaml

structure KeyPlace where
  /-- The key starts where entries of the block start, so nothing but a key may stand there. -/
  required : Bool
  /-- The number of tokens before it. -/
  before : Nat
  pos : Position

structure Lexer where
  rest : List Char
  pos : Position
  /-- The column of the innermost open block, below zero outside all of them. -/
  indent : Int
  /-- The columns of the blocks around it, innermost first. -/
  outer : List Int
  /-- A key without a mark may start here. -/
  keyAllowed : Bool
  /-- The place of a possible key outside all brackets. -/
  key : Option KeyPlace
  /-- The places of possible keys for every open bracket, innermost first. -/
  flowKeys : List (Option KeyPlace)
  tokens : Array Token

namespace Lexer

def start (cs : List Char) : Lexer :=
  ⟨cs, ⟨0, 0, 0⟩, -1, [], true, none, [], #[]⟩

def inFlow (s : Lexer) : Bool :=
  !s.flowKeys.isEmpty

def emit (s : Lexer) (t : Token) : Lexer :=
  { s with tokens := s.tokens.push t }

/-- Puts a token at a place among the tokens. -/
def emitAt (s : Lexer) (place : Nat) (t : Token) : Lexer :=
  { s with tokens := s.tokens.extract 0 place ++ #[t] ++ s.tokens.extract place s.tokens.size }

def skip (s : Lexer) (n : Nat) : Lexer :=
  { s with rest := s.rest.drop n, pos := s.pos.advance (s.rest.take n) }

def goTo (s : Lexer) (r : Remainder) : Lexer :=
  { s with rest := r.1, pos := r.2 }

def allowKey (s : Lexer) (allowed : Bool) : Lexer :=
  { s with keyAllowed := allowed }

/-- The place of a possible key on the innermost level. -/
def possibleKey (s : Lexer) : Option KeyPlace :=
  match s.flowKeys with
  | [] => s.key
  | k :: _ => k

/-- Sets the place of a possible key on the innermost level. -/
def setKey (s : Lexer) (k : Option KeyPlace) : Lexer :=
  match s.flowKeys with
  | [] => { s with key := k }
  | _ :: ks => { s with flowKeys := k :: ks }

/-- Gives up the possible key of the innermost level. -/
def dropKey (s : Lexer) : Except SyntaxError Lexer :=
  match s.possibleKey with
  | some k => if k.required then .error .keyWithoutValue else .ok (s.setKey none)
  | none => .ok s

def saveKey (s : Lexer) : Except SyntaxError Lexer :=
  if s.keyAllowed then do
    let s ← s.dropKey
    return s.setKey (some
      ⟨!s.inFlow && decide (s.indent = s.pos.column), s.tokens.size, s.pos⟩)
  else .ok s

def longestKey : Nat := 1024

def freshKey (s : Lexer) : Option KeyPlace → Except SyntaxError (Option KeyPlace)
  | some k =>
      if k.pos.line < s.pos.line ∨ k.pos.index + longestKey < s.pos.index then
        if k.required then .error .keyWithoutValue else .ok none
      else .ok (some k)
  | none => .ok none

def forgetStaleKeys (s : Lexer) : Except SyntaxError Lexer := do
  let key ← s.freshKey s.key
  let flowKeys ← s.flowKeys.mapM s.freshKey
  return { s with key, flowKeys }

/-- Closes the blocks that stand deeper than a column. -/
def closeBlocks (s : Lexer) (column : Int) : Lexer :=
  if s.inFlow then s else go s.indent s.outer s.tokens
where
  /-- Closes blocks from the innermost one on. -/
  go (indent : Int) : List Int → Array Token → Lexer
    | [], tokens => { s with indent, outer := [], tokens }
    | o :: os, tokens =>
        if column < indent then go o os (tokens.push .blockEnd)
        else { s with indent, outer := o :: os, tokens }

/-- Opens a block at a column deeper than the block around it; its token comes at a place. -/
def openBlock (s : Lexer) (column : Nat) (place : Nat) (t : Token) : Lexer :=
  if !s.inFlow && decide (s.indent < column) then
    { s.emitAt place t with indent := column, outer := s.indent :: s.outer }
  else s

/-- Passes over spaces, comments and line breaks.  Tabs count as spaces where no key may start, and
a byte order mark may start a line, where it takes up a column.
Every step passes over a character at least, so the length of the text bounds their number. -/
def skipBetween : Nat → Lexer → Lexer
  | 0, s => s
  | fuel + 1, s =>
      let s := if s.pos.column = 0 && s.rest.head? == some '\ufeff' then s.skip 1 else s
      let isSkipped := fun c => c = ' ' || ((s.inFlow || !s.keyAllowed) && c = '\t')
      let s := s.skip (s.rest.takeWhile isSkipped).length
      let s :=
        if s.rest.head? == some '#' then s.skip (s.rest.takeWhile fun c => !isBreak c).length else s
      match s.rest with
      | [] => s
      | c :: _ =>
          if isBreak c then
            let s := s.goTo (skipBreak s.rest s.pos)
            skipBetween fuel (if s.inFlow then s else s.allowKey true)
          else s

/-- Goes on at a rest of the same line. -/
def goToRest (s : Lexer) (rest : List Char) : Lexer :=
  s.goTo (rest, s.pos.advance (s.rest.take (s.rest.length - rest.length)))

def directive (s : Lexer) : Except SyntaxError Lexer := do
  let s ← (s.closeBlocks (-1)).dropKey
  let (token, rest) ← readDirective (s.rest.drop 1)
  let s := s.goToRest rest
  return ((s.goTo (skipBreak s.rest s.pos)).allowKey false).emit token

/-- The end of the text, which counts as the end of its line. -/
def finish (s : Lexer) : Except SyntaxError Lexer := do
  let s ← (s.closeBlocks (-1)).dropKey
  return (s.allowKey false).emit .streamEnd

def documentMarker (s : Lexer) (t : Token) : Except SyntaxError Lexer := do
  let s ← (s.closeBlocks (-1)).dropKey
  return ((s.allowKey false).skip 3).emit t

def openFlow (s : Lexer) (t : Token) : Except SyntaxError Lexer := do
  let s ← s.saveKey
  let s := { s with flowKeys := none :: s.flowKeys }
  return ((s.allowKey true).skip 1).emit t

def closeFlow (s : Lexer) (t : Token) : Except SyntaxError Lexer := do
  let s ← s.dropKey
  let s := { s with flowKeys := s.flowKeys.drop 1 }
  return ((s.allowKey false).skip 1).emit t

def flowEntry (s : Lexer) : Except SyntaxError Lexer := do
  let s ← s.dropKey
  return ((s.allowKey true).skip 1).emit .flowEntry

/-- The hyphen of a sequence's entry; inside brackets the hyphen is left to be refused later. -/
def blockEntry (s : Lexer) : Except SyntaxError Lexer := do
  if !s.inFlow && !s.keyAllowed then throw .misplacedEntry
  let s ← (s.openBlock s.pos.column s.tokens.size .blockSequenceStart).dropKey
  return ((s.allowKey true).skip 1).emit .blockEntry

def markedKey (s : Lexer) : Except SyntaxError Lexer := do
  if !s.inFlow && !s.keyAllowed then throw .misplacedKey
  let s ← (s.openBlock s.pos.column s.tokens.size .blockMappingStart).dropKey
  return ((s.allowKey (!s.inFlow)).skip 1).emit .key

def value (s : Lexer) : Except SyntaxError Lexer :=
  match s.possibleKey with
  | some k =>
      let s := (s.emitAt k.before .key).openBlock k.pos.column k.before .blockMappingStart
      .ok ((((s.setKey none).allowKey false).skip 1).emit .value)
  | none => do
      if !s.inFlow && !s.keyAllowed then throw .misplacedValue
      let s := s.openBlock s.pos.column s.tokens.size .blockMappingStart
      return ((s.allowKey (!s.inFlow)).skip 1).emit .value

def nameAfterSign (s : Lexer) (t : String → Token) : Except SyntaxError Lexer := do
  let s := (← s.saveKey).allowKey false
  let (name, rest) ← readName (s.rest.drop 1)
  return (s.goToRest rest).emit (t name)

def tag (s : Lexer) : Except SyntaxError Lexer := do
  let s := (← s.saveKey).allowKey false
  let (token, rest) ← readTag s.rest
  if !(atGap rest || (s.inFlow && rest.head? == some ',')) then throw .badTag
  return (s.goToRest rest).emit token

def blockScalar (s : Lexer) (style : ScalarStyle) : Except SyntaxError Lexer := do
  let s := ((← s.dropKey).allowKey true).skip 1
  let (text, remainder) ← readBlock (style = .folded) s.indent s.rest s.pos
  return (s.goTo remainder).emit (.scalar style (String.ofList text.reverse))

def quotedScalar (s : Lexer) (style : ScalarStyle) (quote : Char) : Except SyntaxError Lexer := do
  let s := ((← s.saveKey).allowKey false).skip 1
  let (text, remainder) ← readQuoted quote s.rest s.pos .empty 0
  return (s.goTo remainder).emit (.scalar style (String.ofList text.reverse))

/-- A plain scalar; a key may start on the line behind it. -/
def plainScalar (s : Lexer) : Except SyntaxError Lexer := do
  let s := (← s.saveKey).allowKey false
  let (draft, remainder) ← readPlain s.inFlow (s.indent + 1).toNat s.rest s.pos .empty false
  return ((s.goTo remainder).allowKey draft.gap.isLines).emit
    (.scalar .plain (String.ofList draft.text.reverse))

/-- An indicator that starts no plain scalar by itself. -/
def isIndicator (c : Char) : Bool :=
  ['-', '?', ':', ',', '[', ']', '\x7b', '\x7d', '#', '&', '*', '!', '|', '>', '\x27', '\x22', '%',
    '@', '\x60'].contains c

def startsPlain (inFlow : Bool) (c : Char) (rest : List Char) : Bool :=
  !(isGapChar c || isBreak c || isIndicator c) ||
    (c = '-' && !(rest.head?.any isGapChar)) ||
    (!inFlow && (c = '?' || c = ':') && !atGap rest)

/-- Reads the token that starts here; nothing is left to do behind the end of the text. -/
def step (s : Lexer) : Except SyntaxError Lexer :=
  match s.rest with
  | [] => s.finish
  | c :: rest =>
      let atStart := s.pos.column = 0
      let marks := s.inFlow || atGap rest
      if atStart && c = '%' then s.directive
      else if atStart && isMarker '-' s.rest then s.documentMarker .documentStart
      else if atStart && isMarker '.' s.rest then s.documentMarker .documentEnd
      else if c = '[' then s.openFlow .flowSequenceStart
      else if c = '\x7b' then s.openFlow .flowMappingStart
      else if c = ']' then s.closeFlow .flowSequenceEnd
      else if c = '\x7d' then s.closeFlow .flowMappingEnd
      else if c = ',' then s.flowEntry
      else if c = '-' && atGap rest then s.blockEntry
      else if c = '?' && marks then s.markedKey
      else if c = ':' && marks then s.value
      else if c = '*' then s.nameAfterSign .alias
      else if c = '&' then s.nameAfterSign .anchor
      else if c = '!' then s.tag
      else if c = '|' && !s.inFlow then s.blockScalar .literal
      else if c = '>' && !s.inFlow then s.blockScalar .folded
      else if c = '\x27' then s.quotedScalar .singleQuoted c
      else if c = '\x22' then s.quotedScalar .doubleQuoted c
      else if startsPlain s.inFlow c rest then s.plainScalar
      else .error .unexpectedCharacter

/-- Reads tokens up to the end of the text.  Every token has a character, so the length of the text
bounds their number. -/
def run : Nat → Lexer → Except SyntaxError (Array Token)
  | 0, s => .ok s.tokens
  | fuel + 1, s => do
      let s ← (s.skipBetween (s.rest.length + 1)).forgetStaleKeys
      let s ← (s.closeBlocks s.pos.column).step
      if s.tokens.back? = some .streamEnd then return s.tokens else run fuel s

end Lexer

namespace Token

def ofChars (cs : List Char) : Except SyntaxError (List Token) := do
  if cs.any fun c => !isAllowed c then throw .forbiddenCharacter
  let tokens ← (Lexer.start cs).run (cs.length + 1)
  return tokens.toList

end Token

end ObstacleWatch.Yaml
