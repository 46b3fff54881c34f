import ObstacleWatch.Fields
import ObstacleWatch.Yaml.Node

/-!
# Records in YAML

A record with fixed field names is a mapping in which no field comes twice and no other name comes
at all; a scalar without text stands for a record without fields.  Numbers must not be quoted, while
a text may be written in any style.  Aliases are followed.
-/

namespace ObstacleWatch.Yaml

/-- The exponent of a decimal number, if there is one. -/
def exponent? : List Char → Option Int
  | [] => some 0
  | e :: cs =>
      let (negative, ds) :=
        match cs with
        | '-' :: ds => (true, ds)
        | '+' :: ds => (false, ds)
        | ds => (false, ds)
      if (e = 'e' ∨ e = 'E') ∧ ds ≠ [] ∧ ds.all Char.isDigit then
        some (if negative then -digitsValue ds else digitsValue ds)
      else none

/-- A decimal number without a sign: digits with a point anywhere among them, and an exponent. -/
def decimal? (cs : List Char) : Option Decimal :=
  let whole := cs.takeWhile Char.isDigit
  let (part, rest) :=
    match cs.dropWhile Char.isDigit with
    | '.' :: rest => (rest.takeWhile Char.isDigit, rest.dropWhile Char.isDigit)
    | rest => ([], rest)
  if whole = [] ∧ part = [] then none
  else (exponent? rest).map fun e => ⟨digitsValue (whole ++ part), e - part.length⟩

def signedDecimal? : List Char → Option Float
  | '-' :: cs => (decimal? cs).map (Decimal.toFloat true)
  | '+' :: cs => (decimal? cs).map (Decimal.toFloat false)
  | cs => (decimal? cs).map (Decimal.toFloat false)

def infinityWords : List String :=
  [".inf", ".Inf", ".INF"]

def nanWords : List String :=
  [".nan", ".NaN", ".NAN"]

def nullWords : List String :=
  ["null", "Null", "NULL", "~"]

/-- The text without one leading plus sign, unless a second sign follows. -/
def withoutPlus? : List Char → Option (List Char)
  | '+' :: '+' :: _ => none
  | '+' :: '-' :: _ => none
  | '+' :: cs => some cs
  | cs => some cs

/-- The double that a plain scalar spells; a decimal number must not be too large for one. -/
def floatOfText? (text : String) : Option Float := do
  let unsigned ← withoutPlus? text.toList
  if infinityWords.contains (String.ofList unsigned) then some (1 / 0)
  else if (infinityWords.map ("-" ++ ·)).contains text then some (-1 / 0)
  else if nanWords.contains text then some (0 / 0)
  else
    let x ← signedDecimal? unsigned
    if x.isFinite then some x else none

/-- The value of a digit in bases up to sixteen. -/
def digitIn? (base : Nat) (c : Char) : Option Nat :=
  match hexNumber? [c] with
  | some d => if d < base then some d else none
  | none => none

/-- The number that digits of a base spell; there must be one. -/
def natInBase? (base : Nat) (cs : List Char) : Option Nat :=
  if cs = [] then none
  else cs.foldlM (fun n c => (digitIn? base c).map (base * n + ·)) 0

/-- The natural number that a plain scalar spells, in one of four bases.  In base ten no zero may
stand in front of other digits. -/
def natOfText? (text : String) : Option Nat :=
  match withoutPlus? text.toList with
  | some ('0' :: 'x' :: ds) => natInBase? 16 ds
  | some ('0' :: 'o' :: ds) => natInBase? 8 ds
  | some ('0' :: 'b' :: ds) => natInBase? 2 ds
  | some ('0' :: d :: ds) =>
      if (d :: ds).all Char.isDigit then none else natInBase? 10 ('0' :: d :: ds)
  | some ds => natInBase? 10 ds
  | none => none

namespace Node

/-- The node itself, or the one that it stands for in its document. -/
def follow? (root : Node) : Node → Option Node
  | .alias anchor => root.lastAnchored? anchor
  | n => some n

def text? (root n : Node) : Option String := do
  match ← follow? root n with
  | .scalar _ _ text => some text
  | _ => none

/-- The text of a scalar that may be read as a number: one that is written plainly, or literally
under the tag of the kind of number. -/
def numberText? (tag : String) (root n : Node) : Option String := do
  match ← follow? root n with
  | .scalar _ .plain text => some text
  | .scalar p .literal text => if p.tag = some tag then some text else none
  | _ => none

def floatTag : String := "tag:yaml.org,2002:float"

def intTag : String := "tag:yaml.org,2002:int"

def float? (root n : Node) : Option Float := do
  floatOfText? (← numberText? floatTag root n)

def natUpTo? (high : Nat) (root n : Node) : Option Nat := do
  let i ← natOfText? (← numberText? intTag root n)
  if i ≤ high then some i else none

def nullTag : String := "tag:yaml.org,2002:null"

/-- A text or nothing.  A plain scalar is nothing if it has no text or is a word for nothing; with
a tag, the tag decides. -/
def optionalText? (root n : Node) : Option (Option String) := do
  match ← follow? root n with
  | .scalar p .plain text =>
      match p.tag with
      | some tag =>
          if tag = nullTag then if nullWords.contains text then some none else none
          else some (some text)
      | none => if text.isEmpty || nullWords.contains text then some none else some (some text)
  | .scalar _ _ text => some (some text)
  | _ => none

/-- The entries of a mapping; a plain scalar without text has none. -/
def entries? (root n : Node) : Option (List (Node × Node)) := do
  match ← follow? root n with
  | .mapping _ entries => some entries
  | .scalar _ .plain "" => some []
  | _ => none

/-- The entries of a mapping whose keys are texts. -/
def namedEntries? (root n : Node) : Option (List (String × Node)) := do
  (← entries? root n).mapM fun (key, value) => (text? root key).map (·, value)

/-- The values of the named fields, in the order of the names, each with a mark for its absence. -/
def fields? (names : List String) (root n : Node) : Option (List (Option Node)) := do
  let entries ← namedEntries? root n
  if entries.all fun e => names.contains e.1 then names.mapM fun name => unique? name entries
  else none

/-- A mapping from texts to doubles; of equal keys the last one counts. -/
def floatsByName? (root n : Node) : Option (List (String × Float)) := do
  let entries ← (← namedEntries? root n).mapM fun (name, value) => (float? root value).map (name, ·)
  return entries.foldl (fun kept e => kept.filter (·.1 != e.1) ++ [e]) []

end Node

end ObstacleWatch.Yaml
