import ObstacleWatch.Number.Decimal
import ObstacleWatch.Text.Blank
import ObstacleWatch.Text.Case
import ObstacleWatch.Text.Inert

/-!
# Log records and their filter

What the parts of the program report is a list of records, each with a severity, the part it comes
from, and a message.  A filter is a list of rules; for a record the rule with the longest matching
target decides, and of rules with the same target the last one.  A filter is read from directives
between commas; those that make no rule are passed over with a complaint.
-/

namespace ObstacleWatch.Log

inductive Severity where
  | error
  | warn
  | info
  | debug
  | trace
  deriving Repr, DecidableEq

namespace Severity

def detail : Severity → Nat
  | error => 1
  | warn => 2
  | info => 3
  | debug => 4
  | trace => 5

def name : Severity → String
  | error => "ERROR"
  | warn => "WARN"
  | info => "INFO"
  | debug => "DEBUG"
  | trace => "TRACE"

end Severity

inductive Source where
  | tracks
  | engine
  | alarm
  | eventQueue
  | pipeline
  | recording
  | eventLog
  | command
  deriving Repr, DecidableEq

def Source.target : Source → String
  | tracks => "cart_obstacle_risk::risk::track_store"
  | engine => "cart_obstacle_risk::risk::engine"
  | alarm => "cart_obstacle_risk::pipeline::alarm"
  | eventQueue => "cart_obstacle_risk::pipeline::event_bus"
  | pipeline => "cart_obstacle_risk::pipeline::orchestrator"
  | recording => "cart_obstacle_risk::replay"
  | eventLog => "cart_obstacle_risk::event_log"
  | command => "obstacle_replay"

structure Record where
  severity : Severity
  source : Source
  message : String
  deriving Repr, DecidableEq

def Record.line (r : Record) : String :=
  r.severity.name ++ " " ++ r.source.target ++ ": " ++ inert r.message

/-- A rule of a filter: the most detail that passes for targets that start as given; zero lets
nothing pass, and without a target the rule is for all. -/
structure Rule where
  target : Option String
  detail : Nat
  deriving Repr, DecidableEq

inductive DirectiveError where
  | malformed
  | unknownDetail
  deriving Repr, DecidableEq

def DirectiveError.message : DirectiveError → String
  | malformed => "invalid filter directive"
  | unknownDetail =>
      "error parsing level filter: expected one of \"off\", \"error\", \"warn\", \"info\", " ++
        "\"debug\", \"trace\", or a number 0-5"

/-- The number that digits stand for; a plus sign may come first. -/
def numberOfWord? (word : List Char) : Option Nat :=
  let digits := if word.head? = some '+' then word.drop 1 else word
  if digits.isEmpty || !digits.all Char.isDigit then none else some (digitsValue digits)

/-- The detail that a number or name stands for. -/
def detailOfWord? (word : List Char) : Option Nat :=
  match numberOfWord? word with
  | some n => if n ≤ 5 then some n else none
  | none =>
      match foldCase (String.ofList word) with
      | "off" => some 0
      | "error" => some 1
      | "warn" => some 2
      | "info" => some 3
      | "debug" => some 4
      | "trace" => some 5
      | _ => none

/-- A directive may start with this character: one of a name, a bracket, or any beyond ASCII. -/
def startsDirective (c : Char) : Bool :=
  c.isAlphanum || ['-', ':', '_', '['].contains c || decide (0x80 ≤ c.toNat)

/-- The rule of a directive: a detail for all targets, a target with its detail, or a target alone
for which everything passes.  White space in front of a target spoils its detail. -/
def Rule.ofDirective (directive : List Char) : Except DirectiveError Rule := do
  let spoilt := directive.head?.any isBlank
  if !((directive.dropWhile isBlank).head?.any startsDirective) then throw .malformed
  let target := directive.takeWhile (· ≠ '=')
  match directive.dropWhile (· ≠ '=') with
  | [] =>
      match detailOfWord? target with
      | some detail => return ⟨none, detail⟩
      | none => return ⟨some (String.ofList target), 5⟩
  | _ :: word =>
      if spoilt then throw .unknownDetail
      else if word.isEmpty then return ⟨some (String.ofList target), 5⟩
      else
        match detailOfWord? word with
        | some detail => return ⟨some (String.ofList target), detail⟩
        | none => throw .unknownDetail

/-- The directives of a text, which stand between commas. -/
def directives (s : String) : List (List Char) :=
  (s.toList.splitOn ',').filter fun d => !d.isEmpty

abbrev Filter := List Rule

/-- The filter of the directives that make rules; without any, only errors pass. -/
def Filter.ofString (s : String) : Filter :=
  match (directives s).filterMap fun d => (Rule.ofDirective d).toOption with
  | [] => [⟨none, 1⟩]
  | rules => rules

/-- What there is to say about the directives that make no rules. -/
def complaints (s : String) : List String :=
  (directives s).filterMap fun d =>
    match Rule.ofDirective d with
    | .ok _ => none
    | .error e => some ("ignoring `" ++ String.ofList d ++ "`: " ++ e.message)

namespace Rule

def applies (rule : Rule) (target : String) : Bool :=
  match rule.target with
  | none => true
  | some start => start.toList.isPrefixOf target.toList

def weight (rule : Rule) : Nat :=
  match rule.target with
  | none => 0
  | some start => start.length + 1

end Rule

namespace Filter

def deciding? (rules : Filter) (target : String) : Option Rule :=
  (rules.filter (·.applies target)).foldl
    (fun best rule =>
      match best with
      | none => some rule
      | some other => if other.weight ≤ rule.weight then some rule else some other)
    none

def passes (rules : Filter) (r : Record) : Bool :=
  match rules.deciding? r.source.target with
  | some rule => decide (r.severity.detail ≤ rule.detail)
  | none => false

end Filter

end ObstacleWatch.Log
