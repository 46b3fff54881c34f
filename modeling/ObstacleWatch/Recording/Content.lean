import ObstacleWatch.Failure
import ObstacleWatch.Files.Tree
import ObstacleWatch.Json.Reader
import ObstacleWatch.Pipeline
import ObstacleWatch.Text.Blank
import ObstacleWatch.Text.Utf8

/-!
# Recordings

A recording holds one frame per line, written in JSON.  Blank lines mean nothing, and lines that are
no frame are passed over and counted.  A line whose octets are no text breaks the recording off.
-/

namespace ObstacleWatch

namespace Frame

def fieldNames : List String :=
  ["timestamp_s", "width", "height", "detections"]

def timestampOfJson? : Json.Value → Option (Option Float)
  | .null => some none
  | v => v.toFloat?.map some

/-- Reads a frame; width and height are required, and unknown members are refused. -/
def ofJson? (v : Json.Value) : Option Frame := do
  match ← v.fields? fieldNames true with
  | [timestamp, some width, some height, detections] =>
      let timestamp ← fieldOr none timestampOfJson? timestamp
      let width ← width.toNatUpTo? (Nat.pow 2 32 - 1)
      let height ← height.toNatUpTo? (Nat.pow 2 32 - 1)
      let detections ← fieldOr [] (·.toListOf? Detection.ofJson?) detections
      some ⟨⟨width, height⟩, timestamp, detections⟩
  | _ => none

end Frame

inductive RecordedLine where
  | blank
  | frame (frame : Frame)
  | malformed
  | noText

namespace RecordedLine

def ofChars (line : List Char) : RecordedLine :=
  match trimBlank line with
  | [] => .blank
  | cs =>
      match (Json.Value.parse? cs).bind Frame.ofJson? with
      | some f => .frame f
      | none => .malformed

def ofOctets (line : List UInt8) : RecordedLine :=
  match Utf8.decode? line with
  | some cs => ofChars cs
  | none => .noText

end RecordedLine

structure Recording where
  frames : List Frame
  /-- The numbers of the malformed lines, counted from one. -/
  malformed : List Nat
  /-- All lines were texts. -/
  isWhole : Bool

namespace Recording

def lineEnd : UInt8 := 10

/-- Reads lines, of which the first has the given number. -/
def ofLines : Nat → List (List UInt8) → Recording
  | _, [] => ⟨[], [], true⟩
  | number, line :: lines =>
      match RecordedLine.ofOctets line with
      | .blank => ofLines (number + 1) lines
      | .frame f =>
          let rest := ofLines (number + 1) lines
          { rest with frames := f :: rest.frames }
      | .malformed =>
          let rest := ofLines (number + 1) lines
          { rest with malformed := number :: rest.malformed }
      | .noText => ⟨[], [], false⟩

def ofOctets (octets : List UInt8) : Recording :=
  ofLines 1 (octets.splitOn lineEnd)

def skippedLines (r : Recording) : Nat :=
  r.malformed.length

def hasTimestamps (r : Recording) : Bool :=
  r.frames.any (·.timestamp.isSome)

def records (r : Recording) (path : String) : List Log.Record :=
  r.malformed.map fun number =>
    ⟨.warn, .recording, s!"{path}:{number}: skipping malformed frame: not a frame"⟩

/-- Reads the recording that a path leads to, and reports its malformed lines. -/
def load (t : FileTree) (path : String) : Except Failure Recording × List Log.Record :=
  match t.read path with
  | .ok octets =>
      let r := ofOctets octets
      (if r.isWhole then .ok r
        else .error ((Failure.of FileError.notText.message).during s!"reading {path}"),
        r.records path)
  | .error .isDirectory =>
      (.error ((Failure.of FileError.isDirectory.message).during s!"reading {path}"), [])
  | .error e => (.error ((Failure.of e.message).during s!"opening {path}"), [])

end Recording

end ObstacleWatch
