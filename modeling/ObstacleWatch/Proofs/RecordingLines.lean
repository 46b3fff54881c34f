import ObstacleWatch.Proofs.RecordFormat
import ObstacleWatch.Proofs.TextLines
import ObstacleWatch.Recording.Content

/-!
# What becomes of the lines of a recording

A recording whose octets are a text is read line by line: each line that spells a frame gives that
frame, each other line that is not blank is counted, and no line has a say in what becomes of
another.  This is not so for octets: a single line whose octets are no text ends the reading, and
all frames of the recording are lost, those before that line as well as those behind it.
-/

namespace ObstacleWatch

/-! ## One line -/

/-- The frame that a line of text spells, if it spells one. -/
def Frame.ofLine? (line : List Char) : Option Frame :=
  (Json.Value.parse? (trimBlank line)).bind ofJson?

def IsBlankLine (line : List Char) : Prop :=
  trimBlank line = []

instance : DecidablePred IsBlankLine :=
  fun _ => inferInstanceAs (Decidable (_ = _))

def IsMalformed (line : List Char) : Prop :=
  ¬IsBlankLine line ∧ Frame.ofLine? line = none

instance : DecidablePred IsMalformed :=
  fun _ => inferInstanceAs (Decidable (¬_ ∧ _ = none))

section

variable {line : List Char}

theorem Frame.ofLine?_of_isBlankLine (hblank : IsBlankLine line) : ofLine? line = none := by
  rw [ofLine?, hblank]
  rfl

theorem not_isBlankLine_of_ofLine? {f : Frame} (hframe : Frame.ofLine? line = some f) :
    ¬IsBlankLine line := by
  intro hblank
  rw [Frame.ofLine?_of_isBlankLine hblank] at hframe
  contradiction

namespace RecordedLine

theorem ofChars_of_isBlankLine (hblank : IsBlankLine line) : ofChars line = .blank := by
  unfold IsBlankLine at hblank
  rw [ofChars, hblank]

theorem ofChars_of_not_isBlankLine (hline : ¬IsBlankLine line) :
    ofChars line =
      match Frame.ofLine? line with
      | some f => .frame f
      | none => .malformed := by
  unfold IsBlankLine at hline
  unfold ofChars Frame.ofLine?
  split
  · contradiction
  · rfl

theorem ofChars_of_ofLine? {f : Frame} (hframe : Frame.ofLine? line = some f) :
    ofChars line = .frame f := by
  rw [ofChars_of_not_isBlankLine (not_isBlankLine_of_ofLine? hframe), hframe]

theorem ofChars_of_isMalformed (hline : IsMalformed line) : ofChars line = .malformed := by
  rw [ofChars_of_not_isBlankLine hline.1, hline.2]

end RecordedLine

end

/-! ## All lines -/

/-- The numbers of the malformed lines, of which the first line has the given one. -/
def malformedNumbers (number : Nat) (lines : List (List Char)) : List Nat :=
  ((lines.zipIdx number).filter fun line => IsMalformed line.1).map Prod.snd

theorem length_malformedNumbers (number : Nat) (lines : List (List Char)) :
    (malformedNumbers number lines).length = lines.countP fun line => IsMalformed line := by
  rw [malformedNumbers, List.length_map]
  induction lines generalizing number with
  | nil => rfl
  | cons line rest ih =>
      rw [List.zipIdx_cons, List.filter_cons, List.countP_cons, ← ih (number + 1)]
      split <;> simp_all

/-- Each line that is not blank is a frame or malformed. -/
theorem length_filterMap_ofLine? (lines : List (List Char)) :
    (lines.filterMap Frame.ofLine?).length + (lines.countP fun line => IsMalformed line) =
      lines.countP fun line => ¬IsBlankLine line := by
  induction lines with
  | nil => rfl
  | cons line rest ih =>
      rw [List.filterMap_cons, List.countP_cons, List.countP_cons, ← ih]
      cases hframe : Frame.ofLine? line with
      | some f =>
          have hline := not_isBlankLine_of_ofLine? hframe
          simp [IsMalformed, hframe, hline]
          omega
      | none => simp [IsMalformed, hframe, Nat.add_assoc]

namespace Recording

section

variable {octets : List UInt8} {lines : List (List UInt8)} {texts : List (List Char)}

theorem ofLines_of_noText {line : List UInt8} (hline : Utf8.decode? line = none) (number : Nat) :
    ofLines number (line :: lines) = ⟨[], [], false⟩ := by
  rw [ofLines, RecordedLine.ofOctets, hline]

theorem ofLines_of_text {line : List UInt8} {text : List Char}
    (hline : Utf8.decode? line = some text) (number : Nat) :
    ofLines number (line :: lines) =
      ⟨(Frame.ofLine? text).toList ++ (ofLines (number + 1) lines).frames,
        (if IsMalformed text then [number] else []) ++ (ofLines (number + 1) lines).malformed,
        (ofLines (number + 1) lines).isWhole⟩ := by
  rw [ofLines, RecordedLine.ofOctets, hline]
  by_cases hblank : IsBlankLine text
  · have hmalformed : ¬IsMalformed text := fun hline => hline.1 hblank
    simp only [RecordedLine.ofChars_of_isBlankLine hblank, Frame.ofLine?_of_isBlankLine hblank,
      if_neg hmalformed]
    rfl
  · cases hframe : Frame.ofLine? text with
    | some f =>
        have hmalformed : ¬IsMalformed text := fun hline => by
          rw [hline.2] at hframe
          contradiction
        simp only [RecordedLine.ofChars_of_ofLine? hframe, if_neg hmalformed]
        rfl
    | none =>
        have hmalformed : IsMalformed text := ⟨hblank, hframe⟩
        simp only [RecordedLine.ofChars_of_isMalformed hmalformed, if_pos hmalformed]
        rfl

theorem ofLines_of_texts (hlines : lines.mapM Utf8.decode? = some texts) (number : Nat) :
    ofLines number lines =
      ⟨texts.filterMap Frame.ofLine?, malformedNumbers number texts, true⟩ := by
  induction lines generalizing texts number with
  | nil =>
      cases hlines
      rfl
  | cons line rest ih =>
      rw [List.mapM_cons] at hlines
      obtain ⟨text, hline, hlines⟩ := Option.bind_eq_some_iff.mp hlines
      obtain ⟨later, hrest, htexts⟩ := Option.bind_eq_some_iff.mp hlines
      cases htexts
      rw [ofLines_of_text hline, ih hrest, malformedNumbers, malformedNumbers, List.zipIdx_cons,
        List.filterMap_cons, List.filter_cons]
      cases Frame.ofLine? text <;> split <;> simp_all

theorem isWhole_ofLines_iff (number : Nat) :
    (ofLines number lines).isWhole = true ↔ lines.mapM Utf8.decode? ≠ none := by
  induction lines generalizing number with
  | nil => simp [ofLines]
  | cons line rest ih =>
      rw [List.mapM_cons]
      cases hline : Utf8.decode? line with
      | none => simp [ofLines_of_noText hline]
      | some text =>
          have hrest := ih (number + 1)
          rw [ofLines_of_text hline]
          cases htexts : rest.mapM Utf8.decode? <;> simp_all

theorem decode?_eq_none_iff :
    Utf8.decode? octets = none ↔ ∃ line ∈ octets.splitOn lineEnd, Utf8.decode? line = none := by
  rw [← mapM_eq_none_iff, lineEnd, Utf8.mapM_decode?_splitOn, Option.map_eq_none_iff]

theorem ofOctets_of_text {text : List Char} (htext : Utf8.decode? octets = some text) :
    ofOctets octets =
      ⟨(text.splitOn '\n').filterMap Frame.ofLine?, malformedNumbers 1 (text.splitOn '\n'),
        true⟩ := by
  have hlines := Utf8.mapM_decode?_splitOn octets
  rw [htext] at hlines
  exact ofLines_of_texts hlines 1

theorem isWhole_ofOctets_of_none (hnone : Utf8.decode? octets = none) :
    (ofOctets octets).isWhole = false := by
  have hlines := Utf8.mapM_decode?_splitOn octets
  rw [hnone] at hlines
  rw [← Bool.not_eq_true, ofOctets, isWhole_ofLines_iff]
  exact not_not.mpr hlines

end

/-! ## The file -/

/-- What a recording holds of the lines of its text. -/
structure Reads (r : Recording) (lines : List (List Char)) : Prop where
  frames_eq : r.frames = lines.filterMap Frame.ofLine?
  malformed_eq : r.malformed = malformedNumbers 1 lines
  skippedLines_eq : r.skippedLines = lines.countP fun line => IsMalformed line
  account : r.frames.length + r.skippedLines = lines.countP fun line => ¬IsBlankLine line

/-- What comes of loading a file with some octets: its text line by line, or nothing if there is a
line without a text. -/
structure LoadsText (t : FileTree) (path : String) (octets : List UInt8) : Prop where
  reads : ∀ text, Utf8.decode? octets = some text →
    ∃ r, load t path = (.ok r, r.records path) ∧ r.Reads (text.splitOn '\n')
  refused : Utf8.decode? octets = none → (load t path).1 =
    .error ((Failure.of FileError.notText.message).during s!"reading {path}")
  noText_iff : Utf8.decode? octets = none ↔
    ∃ line ∈ octets.splitOn lineEnd, Utf8.decode? line = none

section

variable {t : FileTree} {path : String} {octets : List UInt8}

theorem load_of_isWhole (hread : t.read path = .ok octets)
    (hwhole : (ofOctets octets).isWhole = true) :
    load t path = (.ok (ofOctets octets), (ofOctets octets).records path) := by
  simp only [load, hread, hwhole]
  rfl

theorem load_of_not_isWhole (hread : t.read path = .ok octets)
    (hwhole : (ofOctets octets).isWhole = false) :
    (load t path).1 =
      .error ((Failure.of FileError.notText.message).during s!"reading {path}") := by
  simp only [load, hread, hwhole]
  rfl

/-- A recording of text is read line by line, so that a malformed line costs that line only; a line
whose octets are no text costs the whole recording. -/
theorem load_by_lines (hread : t.read path = .ok octets) : LoadsText t path octets where
  reads := by
    intro text htext
    have hwhole : (ofOctets octets).isWhole = true := by rw [ofOctets_of_text htext]
    refine ⟨ofOctets octets, load_of_isWhole hread hwhole, ?_⟩
    rw [ofOctets_of_text htext]
    refine ⟨rfl, rfl, length_malformedNumbers 1 _, ?_⟩
    rw [skippedLines, length_malformedNumbers]
    exact length_filterMap_ofLine? _
  refused hnone := load_of_not_isWhole hread (isWhole_ofOctets_of_none hnone)
  noText_iff := decode?_eq_none_iff

end

def treeOfRecording (octets : List UInt8) : FileTree :=
  ⟨[(["run"], .file octets)], []⟩

theorem read_treeOfRecording (octets : List UInt8) :
    (treeOfRecording octets).read "/run" = .ok octets := by
  have hsteps : Path.steps "/run" = ["run"] := by decide +kernel
  have habsolute : Path.isAbsolute "/run" = true := by decide +kernel
  have hsize : "/run".utf8ByteSize = 4 ∧ "run".utf8ByteSize = 3 := by decide +kernel
  simp [treeOfRecording, FileTree.read, FileTree.resolve, FileTree.longestPath, hsteps, habsolute,
    hsize, FileTree.mostLinks, FileTree.travel, FileTree.descend, FileTree.longestName,
    FileTree.entry?]

/-- A frame of a small camera, without detections. -/
def emptyFrameLine : List UInt8 :=
  Utf8.encode "\x7b\"width\":640,\"height\":480\x7d".toList

/-- Two frames, the second with a carriage return, around a line that is no frame and an empty
one. -/
def mixedLines : List UInt8 :=
  emptyFrameLine ++ [lineEnd, 91, lineEnd, lineEnd] ++ emptyFrameLine ++ [13, lineEnd]

theorem load_by_lines_of_mixedLines :
    (treeOfRecording mixedLines).read "/run" = .ok mixedLines ∧
      (ofOctets mixedLines).frames.map (·.size) = [⟨640, 480⟩, ⟨640, 480⟩] ∧
      (ofOctets mixedLines).malformed = [2] ∧
      LoadsText (treeOfRecording mixedLines) "/run" mixedLines := by
  have hread := read_treeOfRecording mixedLines
  exact ⟨hread, by decide +kernel, by decide +kernel, load_by_lines hread⟩

/-- A single octet that is no text, on a line between two frames. -/
def brokenLines : List UInt8 :=
  emptyFrameLine ++ [lineEnd, 0xff, lineEnd] ++ emptyFrameLine

/-- A line that is no frame, whatever its octets are, costs that line only. -/
def MalformedLineCostsItself : Prop :=
  ∀ (t : FileTree) (path : String) (octets : List UInt8), t.read path = .ok octets →
    ∃ r, (load t path).1 = .ok r ∧
      r.frames = (octets.splitOn lineEnd).filterMap (fun line =>
        (Utf8.decode? line).bind Frame.ofLine?) ∧
      r.skippedLines = (octets.splitOn lineEnd).countP fun line =>
        (Utf8.decode? line).all fun text => IsMalformed text

theorem not_malformedLineCostsItself : ¬MalformedLineCostsItself := by
  intro hcosts
  have hread := read_treeOfRecording brokenLines
  have hnone : Utf8.decode? brokenLines = none := by decide +kernel
  obtain ⟨r, hload, -⟩ := hcosts _ "/run" brokenLines hread
  rw [load_of_not_isWhole hread (isWhole_ofOctets_of_none hnone)] at hload
  cases hload

end Recording

end ObstacleWatch
