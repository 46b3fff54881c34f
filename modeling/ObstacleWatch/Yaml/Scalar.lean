import ObstacleWatch.Yaml.Token

/-!
# YAML scalars

The three ways a scalar is written, each read from its first character on.  Between two pieces of
text on different lines the line break folds: one break becomes a space, further breaks stay.
-/

namespace ObstacleWatch.Yaml

/-- What stands between two pieces of text of a scalar; lists are kept last character first. -/
inductive Gap where
  | none
  /-- Spaces and tabs on one line. -/
  | blanks (chars : List Char)
  /-- A first line break, unless it was escaped, and the breaks after it. -/
  | lines (first : Option Char) (others : List Char)

namespace Gap

/-- One more space or tab; at the start of a line it has no meaning. -/
def addBlank (c : Char) : Gap → Gap
  | none => blanks [c]
  | blanks cs => blanks (c :: cs)
  | lines first others => lines first others

/-- One more line break; spaces and tabs before the first one are lost. -/
def addBreak (c : Char) : Gap → Gap
  | none => lines (some (breakChar c)) []
  | blanks _ => lines (some (breakChar c)) []
  | lines first others => lines first (breakChar c :: others)

def isLines : Gap → Bool
  | lines _ _ => true
  | _ => false

def isNone : Gap → Bool
  | none => true
  | _ => false

/-- The characters that a gap stands for, last first. -/
def folded : Gap → List Char
  | none => []
  | blanks cs => cs
  | lines Option.none others => others
  | lines (some first) others =>
      if first = '\n' then
        if others.isEmpty then [' '] else others
      else others ++ [first]

end Gap

/-- A scalar that is being read, its text last character first. -/
structure Draft where
  text : List Char
  gap : Gap

namespace Draft

def empty : Draft := ⟨[], .none⟩

def joined (d : Draft) : List Char :=
  d.gap.folded ++ d.text

def push (d : Draft) (c : Char) : Draft :=
  ⟨c :: d.joined, .none⟩

def addBlank (d : Draft) (c : Char) : Draft :=
  { d with gap := d.gap.addBlank c }

def addBreak (d : Draft) (c : Char) : Draft :=
  { d with gap := d.gap.addBreak c }

/-- An escaped line break: the gap starts anew and folds to nothing by itself. -/
def addEscapedBreak (d : Draft) : Draft :=
  ⟨d.joined, .lines none []⟩

end Draft

abbrev Remainder := List Char × Position

/-- A flow indicator that ends a plain scalar inside brackets or braces. -/
def isFlowIndicator (c : Char) : Bool :=
  c = ',' || c = '[' || c = ']' || c = '\x7b' || c = '\x7d'

def endsPlain (inFlow : Bool) (c : Char) (rest : List Char) : Bool :=
  (c = ':' && atGap rest) || (inFlow && isFlowIndicator c)

/-- A colon that is glued to a flow indicator. -/
def isGluedColon (inFlow : Bool) (c : Char) (rest : List Char) : Bool :=
  inFlow && c = ':' &&
    match rest with
    | [] => false
    | d :: _ => isFlowIndicator d || d = '?'

/-- A plain scalar stops at the first character behind a gap. -/
def stopsAtStart (inFlow : Bool) (indent : Nat) (gap : Gap) (c : Char) (rest : List Char)
    (pos : Position) : Bool :=
  (!gap.isNone && !inFlow && decide (pos.column < indent)) ||
    (pos.column = 0 && isDocumentMarker (c :: rest)) || c = '#'

/-- Reads a plain scalar.  `inText` says that the character before belonged to the text, and
`indent` is the least column of its further lines.  The draft keeps the gap behind the scalar. -/
def readPlain (inFlow : Bool) (indent : Nat) :
    List Char → Position → Draft → Bool → Except SyntaxError (Draft × Remainder)
  | [], pos, draft, _ => .ok (draft, [], pos)
  | c :: rest, pos, draft, inText =>
      if isGapChar c then
        if draft.gap.isLines && decide (pos.column < indent) && c = '\t' then
          .error .tabInIndentation
        else readPlain inFlow indent rest (pos.next c) (draft.addBlank c) false
      else if isHalfBreak c rest then
        readPlain inFlow indent rest pos.halfBreak draft false
      else if isBreak c then
        readPlain inFlow indent rest (pos.newLine c) (draft.addBreak c) false
      else if !inText && stopsAtStart inFlow indent draft.gap c rest pos then
        .ok (draft, c :: rest, pos)
      else if isGluedColon inFlow c rest then .error .colonInFlow
      else if endsPlain inFlow c rest then .ok (draft, c :: rest, pos)
      else readPlain inFlow indent rest (pos.next c) (draft.push c) true

def hexNumber? (cs : List Char) : Option Nat :=
  cs.foldlM
    (fun n c =>
      if '0' ≤ c ∧ c ≤ '9' then some (n * 16 + (c.toNat - 48))
      else if 'a' ≤ c ∧ c ≤ 'f' then some (n * 16 + (c.toNat - 87))
      else if 'A' ≤ c ∧ c ≤ 'F' then some (n * 16 + (c.toNat - 55))
      else none)
    0

/-- The character of a numeric escape with a fixed number of digits. -/
def numericEscape? (digits : Nat) (rest : List Char) : Option Char := do
  if rest.length < digits then none
  let n ← hexNumber? (rest.take digits)
  if (0xd800 ≤ n ∧ n ≤ 0xdfff) ∨ 0x10ffff < n then none
  some (Char.ofNat n)

/-- The character of an escape and the number of characters behind the backslash. -/
def escape? : List Char → Option (Char × Nat)
  | [] => none
  | c :: rest =>
      if c = '0' then some ('\x00', 1)
      else if c = 'a' then some ('\x07', 1)
      else if c = 'b' then some ('\x08', 1)
      else if c = 't' || c = '\t' then some ('\t', 1)
      else if c = 'n' then some ('\n', 1)
      else if c = 'v' then some ('\x0b', 1)
      else if c = 'f' then some ('\x0c', 1)
      else if c = 'r' then some ('\r', 1)
      else if c = 'e' then some ('\x1b', 1)
      else if c = ' ' || c = '\x22' || c = '/' || c = '\\' then some (c, 1)
      else if c = 'N' then some ('\x85', 1)
      else if c = '_' then some ('\xa0', 1)
      else if c = 'L' then some ('\u2028', 1)
      else if c = 'P' then some ('\u2029', 1)
      else if c = 'x' then (numericEscape? 2 rest).map (·, 3)
      else if c = 'u' then (numericEscape? 4 rest).map (·, 5)
      else if c = 'U' then (numericEscape? 8 rest).map (·, 9)
      else none

/-- Reads a scalar behind its opening quote up to its closing one.  `skip` characters have been
dealt with by an escape or a doubled quote before them. -/
def readQuoted (quote : Char) :
    List Char → Position → Draft → Nat → Except SyntaxError (List Char × Remainder)
  | [], _, _, _ => .error .unclosedQuote
  | c :: rest, pos, draft, skip + 1 => readQuoted quote rest (pos.next c) draft skip
  | c :: rest, pos, draft, 0 =>
      if isGapChar c then readQuoted quote rest (pos.next c) (draft.addBlank c) 0
      else if isHalfBreak c rest then readQuoted quote rest pos.halfBreak draft 0
      else if isBreak c then readQuoted quote rest (pos.newLine c) (draft.addBreak c) 0
      else if pos.column = 0 && isDocumentMarker (c :: rest) then .error .markerInQuote
      else if c = quote then
        if quote = '\x27' && rest.head? == some quote then
          readQuoted quote rest (pos.next c) (draft.push quote) 1
        else .ok (draft.joined, rest, pos.next c)
      else if c = '\\' && quote = '\x22' then
        match rest with
        | [] => .error .unclosedQuote
        | d :: _ =>
            if isBreak d then
              readEscapedBreak quote rest (pos.next c) draft.addEscapedBreak
            else
              match escape? rest with
              | some (e, n) => readQuoted quote rest (pos.next c) (draft.push e) n
              | none => .error .badEscape
      else readQuoted quote rest (pos.next c) (draft.push c) 0
where
  /-- Passes over an escaped line break. -/
  readEscapedBreak (quote : Char) :
      List Char → Position → Draft → Except SyntaxError (List Char × Remainder)
    | [], _, _ => .error .unclosedQuote
    | c :: rest, pos, draft =>
        if isHalfBreak c rest then readEscapedBreak quote rest pos.halfBreak draft
        else readQuoted quote rest (pos.newLine c) draft 0

/-- How many line breaks at the end of a block scalar are kept. -/
inductive Chomping where
  | strip
  | clip
  | keep
  deriving Repr, DecidableEq

def chomping? (c : Char) : Option Chomping :=
  if c = '+' then some .keep else if c = '-' then some .strip else none

def increment? (c : Char) : Option Nat :=
  if c.isDigit then some (c.toNat - 48) else none

/-- The signs behind the indicator of a block scalar: chomping and indentation, in either order,
with zero for an indentation that is left to the text. -/
def readBlockSigns (cs : List Char) : Except SyntaxError (Chomping × Nat × List Char) := do
  let (chomping, increment, rest) :=
    match cs with
    | [] => (Chomping.clip, (none : Option Nat), [])
    | c :: rest =>
        match chomping? c with
        | some chomping =>
            match rest with
            | d :: tail =>
                match increment? d with
                | some n => (chomping, some n, tail)
                | none => (chomping, none, rest)
            | [] => (chomping, none, [])
        | none =>
            match increment? c with
            | some n =>
                match rest with
                | d :: tail =>
                    match chomping? d with
                    | some chomping => (chomping, some n, tail)
                    | none => (Chomping.clip, some n, rest)
                | [] => (Chomping.clip, some n, [])
            | none => (Chomping.clip, none, cs)
  if increment = some 0 then throw .badBlockHeader
  return (chomping, increment.getD 0, rest)

/-- The rest behind spaces, tabs and a comment, up to the line break, and how many characters were
passed over.  Anything else on the line is an error. -/
def skipLineEnd (error : SyntaxError) (cs : List Char) :
    Except SyntaxError (List Char × Nat) :=
  let afterGap := cs.dropWhile isGapChar
  let rest :=
    match afterGap with
    | '#' :: comment => comment.dropWhile fun c => !isBreak c
    | _ => afterGap
  if atBreak rest then .ok (rest, cs.length - rest.length) else .error error

/-- The rest behind a line break, if one is next. -/
def skipBreak : List Char → Position → Remainder
  | [], pos => ([], pos)
  | c :: rest, pos =>
      if isHalfBreak c rest then (rest.drop 1, pos.halfBreak.newLine '\n')
      else if isBreak c then (rest, pos.newLine c)
      else (c :: rest, pos)

/-- What stands before a line of a block scalar: line breaks, last first, and the widest
indentation seen. -/
structure BlockGap where
  breaks : List Char
  widest : Nat
  remainder : Remainder

/-- Reads indentation and empty lines; while the indentation is not known it is zero, and every
space belongs to it. -/
def readBlockGap (indent : Nat) :
    List Char → Position → List Char → Nat → Except SyntaxError BlockGap
  | [], pos, breaks, widest => .ok ⟨breaks, max widest pos.column, [], pos⟩
  | c :: rest, pos, breaks, widest =>
      let inIndentation := indent = 0 || decide (pos.column < indent)
      if c = ' ' && inIndentation then readBlockGap indent rest (pos.next c) breaks widest
      else
        let widest := max widest pos.column
        if c = '\t' && inIndentation then .error .tabInIndentation
        else if isHalfBreak c rest then readBlockGap indent rest pos.halfBreak breaks widest
        else if isBreak c then
          readBlockGap indent rest (pos.newLine c) (breakChar c :: breaks) widest
        else .ok ⟨breaks, widest, c :: rest, pos⟩

/-- A block scalar that is being read, lists last character first. -/
structure BlockDraft where
  text : List Char
  /-- The line break behind the last line. -/
  lineBreak : List Char
  /-- The empty lines after it. -/
  breaks : List Char
  /-- The last line starts with a space or tab. -/
  startsBlank : Bool

/-- The draft with the line breaks before its next line; in a folded scalar a single break between
lines that do not start with a space or tab becomes a space. -/
def BlockDraft.openLine (d : BlockDraft) (isFolded startsBlank : Bool) : BlockDraft :=
  let joint :=
    if isFolded && d.lineBreak == ['\n'] && !d.startsBlank && !startsBlank then
      if d.breaks.isEmpty then [' '] else []
    else d.lineBreak
  ⟨d.breaks ++ joint ++ d.text, [], [], startsBlank⟩

/-- Reads the lines of a block scalar that have its indentation.  Every line has a character, so the
length of the text bounds their number. -/
def readBlockLines (isFolded : Bool) (indent : Nat) :
    Nat → BlockDraft → Remainder → Except SyntaxError (BlockDraft × Remainder)
  | 0, draft, remainder => .ok (draft, remainder)
  | fuel + 1, draft, (cs, pos) =>
      match cs with
      | [] => .ok (draft, cs, pos)
      | c :: _ =>
          if pos.column = indent then do
            let draft := draft.openLine isFolded (isGapChar c)
            let line := cs.takeWhile fun c => !isBreak c
            let afterLine := cs.dropWhile fun c => !isBreak c
            let (afterBreak, breakPos) := skipBreak afterLine (pos.advance line)
            let lineBreak := (afterLine.take 1).map breakChar
            let gap ← readBlockGap indent afterBreak breakPos [] 0
            readBlockLines isFolded indent fuel
              ⟨line.reverse ++ draft.text, lineBreak, gap.breaks, draft.startsBlank⟩ gap.remainder
          else .ok (draft, cs, pos)

/-- Reads a block scalar behind its indicator; `parent` is the indentation of the block around it,
below zero for none. -/
def readBlock (isFolded : Bool) (parent : Int) (cs : List Char) (pos : Position) :
    Except SyntaxError (List Char × Remainder) := do
  let (chomping, increment, afterSigns) ← readBlockSigns cs
  let (afterHeader, _) ← skipLineEnd .badBlockHeader afterSigns
  let header := cs.take (cs.length - afterHeader.length)
  let (body, bodyPos) := skipBreak afterHeader (pos.advance header)
  let stated := if increment = 0 then 0 else parent.toNat + increment
  let gap ← readBlockGap stated body bodyPos [] 0
  let indent := if stated = 0 then max gap.widest (max (parent + 1).toNat 1) else stated
  let (draft, remainder) ←
    readBlockLines isFolded indent body.length ⟨[], [], gap.breaks, false⟩ gap.remainder
  let text :=
    match chomping with
    | .strip => draft.text
    | .clip => draft.lineBreak ++ draft.text
    | .keep => draft.breaks ++ draft.lineBreak ++ draft.text
  return (text, remainder)

end ObstacleWatch.Yaml
