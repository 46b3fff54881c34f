/-!
# Failures

A failure is a cause with what was being done when it came up, outermost first.  It is told on one
line, or as a report that names the outermost step and lists what lies behind it.
-/

namespace ObstacleWatch

/-- A cause and the steps around it, outermost first. -/
structure Failure where
  steps : List String
  cause : String
  deriving Repr, DecidableEq

namespace Failure

def of (cause : String) : Failure := ⟨[], cause⟩

def during (f : Failure) (step : String) : Failure :=
  { f with steps := step :: f.steps }

def parts (f : Failure) : List String :=
  f.steps ++ [f.cause]

def line (f : Failure) : String :=
  ": ".intercalate f.parts

/-- The lines of a text behind a mark, the later ones indented as deep as the mark. -/
def indented (mark : String) (text : String) : List String :=
  match text.splitOn "\n" with
  | [] => []
  | first :: rest =>
      let gap := String.ofList (List.replicate mark.length ' ')
      (mark ++ first) :: rest.map (gap ++ ·)

/-- The mark of a numbered cause; the number stands in a column of its own. -/
def numberMark (n : Nat) : String :=
  let digits := toString n
  String.ofList (List.replicate (5 - digits.length) ' ') ++ digits ++ ": "

/-- The lines of several causes, each with its number. -/
def numbered : Nat → List String → List String
  | _, [] => []
  | n, cause :: rest => indented (numberMark n) cause ++ numbered (n + 1) rest

def causeLines : List String → List String
  | [] => []
  | [cause] => ["", "Caused by:"] ++ indented "    " cause
  | causes => ["", "Caused by:"] ++ numbered 0 causes

def report (f : Failure) : List String :=
  match f.parts with
  | [] => []
  | outer :: causes => ("Error: " ++ outer).splitOn "\n" ++ causeLines causes

end Failure

end ObstacleWatch
