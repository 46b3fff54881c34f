import Mathlib.Logic.Relation
import ObstacleWatch.Proofs.RecordingLines

/-!
# The layout of a recording means nothing

What is read of a text are its lines without the white space around them, the empty ones left out.
These contents of two texts with a line end between them are the contents of the one and then those
of the other.  White space at the start or at the end of a line is no part of any content, not even
if it brings line ends with it: the lines that it splits off are blank.  Blank lines, carriage
returns before line ends and indentations are all white space at such a place, so a recording may be
laid out with any of them.
-/

namespace ObstacleWatch

/-! ## White space around a line -/

section

variable {c : Char} {line : List Char}

theorem trimBlank_cons (hc : isBlank c = true) : trimBlank (c :: line) = trimBlank line := by
  rw [trimBlank, List.dropWhile_cons_of_pos hc, trimBlank]

theorem trimBlank_concat (hc : isBlank c = true) : trimBlank (line ++ [c]) = trimBlank line := by
  rw [trimBlank, trimBlank, List.dropWhile_append]
  cases hrest : line.dropWhile isBlank with
  | nil => simp [hc]
  | cons d rest =>
      rw [List.isEmpty_cons, if_neg Bool.false_ne_true, List.reverse_append, List.reverse_singleton,
        List.singleton_append, List.dropWhile_cons_of_pos hc]

end

/-! ## Contents of a text -/

/-- The lines of a text without the white space around them, the blank ones left out. -/
def contentLines (text : List Char) : List (List Char) :=
  ((text.splitOn '\n').map trimBlank).filter fun content => content ≠ []

/-- The frame that the content of a line spells, if it spells one. -/
def Frame.ofContent? (content : List Char) : Option Frame :=
  (Json.Value.parse? content).bind ofJson?

theorem filterMap_ofLine?_eq (text : List Char) :
    (text.splitOn '\n').filterMap Frame.ofLine? =
      (contentLines text).filterMap Frame.ofContent? := by
  rw [contentLines, List.filterMap_filter, List.filterMap_map]
  refine List.filterMap_congr fun line _ => ?_
  by_cases hblank : IsBlankLine line
  · simpa [show trimBlank line = [] from hblank] using Frame.ofLine?_of_isBlankLine hblank
  · simp [show trimBlank line ≠ [] from hblank, Frame.ofLine?, Frame.ofContent?]

theorem countP_isMalformed_eq (text : List Char) :
    ((text.splitOn '\n').countP fun line => IsMalformed line) =
      (contentLines text).countP fun content => Frame.ofContent? content = none := by
  rw [contentLines, List.countP_filter, List.countP_map]
  refine List.countP_congr fun line _ => ?_
  simp [IsMalformed, IsBlankLine, Frame.ofLine?, Frame.ofContent?, and_comm]

theorem contentLines_newline (before after : List Char) :
    contentLines (before ++ '\n' :: after) = contentLines before ++ contentLines after := by
  rw [contentLines, List.splitOn_append_cons_self, List.map_append, List.filter_append]
  rfl

theorem contentLines_of_notMem {line : List Char} (hline : '\n' ∉ line) :
    contentLines line = [trimBlank line].filter fun content => content ≠ [] := by
  rw [contentLines, List.splitOn_eq_singleton hline, List.map_singleton]

theorem contentLines_nil : contentLines [] = [] := by
  decide

/-! ## White space at the start and at the end of a line -/

section

variable {c : Char} {before after blank : List Char}

theorem contentLines_cons (hc : isBlank c = true) :
    contentLines (c :: after) = contentLines after := by
  by_cases hend : c = '\n'
  · subst hend
    rw [← List.nil_append ('\n' :: after), contentLines_newline, contentLines_nil, List.nil_append]
  · have hne : ¬(c == '\n') = true := by simpa using hend
    rw [contentLines, List.splitOn_cons_eq_if_modifyHead, if_neg hne, contentLines]
    cases after.splitOn '\n' with
    | nil => rfl
    | cons line lines =>
        rw [List.modifyHead_cons, List.map_cons, trimBlank_cons hc, List.map_cons]

theorem contentLines_concat (before : List Char) (hc : isBlank c = true) :
    contentLines (before ++ [c]) = contentLines before := by
  by_cases hmem : '\n' ∈ before
  · obtain ⟨line, rest, rfl, -⟩ := List.eq_append_cons_of_mem hmem
    have ih := contentLines_concat rest hc
    rw [List.append_assoc, List.cons_append, contentLines_newline, contentLines_newline, ih]
  by_cases hend : c = '\n'
  · subst hend
    rw [contentLines_newline, contentLines_nil, List.append_nil]
  · have hwhole : '\n' ∉ before ++ [c] := by
      simpa [hmem] using Ne.symm hend
    rw [contentLines_of_notMem hwhole, contentLines_of_notMem hmem, trimBlank_concat hc]
termination_by before.length

/-- White space; there may be line ends in it. -/
def IsBlankText (cs : List Char) : Prop :=
  ∀ c ∈ cs, isBlank c = true

instance (cs : List Char) : Decidable (IsBlankText cs) :=
  List.decidableBAll _ cs

theorem contentLines_blank_append (hblank : IsBlankText blank) :
    contentLines (blank ++ after) = contentLines after := by
  induction blank with
  | nil => rfl
  | cons c blank ih =>
      obtain ⟨hc, hrest⟩ := List.forall_mem_cons.mp hblank
      rw [List.cons_append, contentLines_cons hc, ih hrest]

theorem contentLines_append_blank (hblank : IsBlankText blank) :
    contentLines (before ++ blank) = contentLines before := by
  induction blank generalizing before with
  | nil => rw [List.append_nil]
  | cons c blank ih =>
      obtain ⟨hc, hrest⟩ := List.forall_mem_cons.mp hblank
      rw [List.append_cons, ih hrest, contentLines_concat before hc]

/-- A line starts behind the text. -/
def EndsLine (before : List Char) : Prop :=
  before = [] ∨ ∃ rest, before = rest ++ ['\n']

/-- A line ends before the text. -/
def StartsWithLineEnd (after : List Char) : Prop :=
  after = [] ∨ ∃ rest, after = '\n' :: rest

theorem contentLines_insert_at_start (hbefore : EndsLine before) (hblank : IsBlankText blank) :
    contentLines (before ++ (blank ++ after)) = contentLines (before ++ after) := by
  rcases hbefore with rfl | ⟨rest, rfl⟩
  · exact contentLines_blank_append hblank
  · rw [List.append_assoc, List.append_assoc, List.singleton_append, List.singleton_append,
      contentLines_newline, contentLines_newline, contentLines_blank_append hblank]

theorem contentLines_insert_at_end (hafter : StartsWithLineEnd after) (hblank : IsBlankText blank) :
    contentLines (before ++ (blank ++ after)) = contentLines (before ++ after) := by
  rcases hafter with rfl | ⟨rest, rfl⟩
  · rw [List.append_nil, List.append_nil, contentLines_append_blank hblank]
  · rw [← List.append_assoc, contentLines_newline, contentLines_newline,
      contentLines_append_blank hblank]

end

/-! ## Layouts -/

/-- A change of layout: lines of white space where a line starts, a carriage return before a line
end, or white space around a line. -/
inductive LayoutChange : List Char → List Char → Prop
  | blankLines {before blank after : List Char} (hbefore : EndsLine before)
      (hblank : IsBlankText blank) :
      LayoutChange (before ++ after) (before ++ (blank ++ '\n' :: after))
  | carriageReturn (before after : List Char) :
      LayoutChange (before ++ '\n' :: after) (before ++ '\r' :: '\n' :: after)
  | padding {before left line right after : List Char} (hbefore : EndsLine before)
      (hleft : IsBlankText left) (hright : IsBlankText right) (hafter : StartsWithLineEnd after) :
      LayoutChange (before ++ (line ++ after)) (before ++ (left ++ (line ++ (right ++ after))))

/-- The texts differ by changes of layout, made or undone. -/
def SameLines : List Char → List Char → Prop :=
  Relation.EqvGen LayoutChange

theorem LayoutChange.contentLines_eq {text text' : List Char} (hchange : LayoutChange text text') :
    contentLines text = contentLines text' := by
  cases hchange with
  | @blankLines before blank after hbefore hblank =>
      have hlines : IsBlankText (blank ++ ['\n']) :=
        List.forall_mem_append.mpr ⟨hblank, List.forall_mem_singleton.mpr (by decide)⟩
      rw [← contentLines_insert_at_start hbefore hlines, List.append_assoc, List.singleton_append]
  | carriageReturn before after =>
      have hreturn : IsBlankText ['\r'] := by decide
      exact (contentLines_insert_at_end (.inr ⟨after, rfl⟩) hreturn).symm
  | @padding before left line right after hbefore hleft hright hafter =>
      rw [contentLines_insert_at_start hbefore hleft, ← List.append_assoc before line,
        ← List.append_assoc before line, contentLines_insert_at_end hafter hright]

theorem SameLines.contentLines_eq {text text' : List Char} (hsame : SameLines text text') :
    contentLines text = contentLines text' := by
  induction hsame with
  | rel _ _ hchange => exact hchange.contentLines_eq
  | refl _ => rfl
  | symm _ _ _ ih => exact ih.symm
  | trans _ _ _ _ _ ihfirst ihsecond => exact ihfirst.trans ihsecond

/-! ## The file -/

namespace Recording

/-- What is read of a text. -/
def ofText (text : List Char) : Recording :=
  ⟨(text.splitOn '\n').filterMap Frame.ofLine?, malformedNumbers 1 (text.splitOn '\n'), true⟩

theorem frames_ofText (text : List Char) :
    (ofText text).frames = (contentLines text).filterMap Frame.ofContent? :=
  filterMap_ofLine?_eq text

theorem skippedLines_ofText (text : List Char) :
    (ofText text).skippedLines =
      (contentLines text).countP fun content => Frame.ofContent? content = none := by
  rw [skippedLines, ofText, length_malformedNumbers, countP_isMalformed_eq]

/-- Two recordings give the same frames and pass over the same number of lines. -/
structure SameReading (r r' : Recording) : Prop where
  frames_eq : r'.frames = r.frames
  skippedLines_eq : r'.skippedLines = r.skippedLines

/-- The first recording is what the two others give one after the other. -/
structure IsJoined (r first second : Recording) : Prop where
  frames_eq : r.frames = first.frames ++ second.frames
  skippedLines_eq : r.skippedLines = first.skippedLines + second.skippedLines

/-- A file with a text is loaded as the lines of this text: part by part, whatever their layout is,
and with an account of every line that is not blank. -/
structure LoadsLineByLine (t : FileTree) (path : String) (text : List Char) : Prop where
  loads : (load t path).1 = .ok (ofText text)
  joined : ∀ before after, text = before ++ '\n' :: after →
    (ofText text).IsJoined (ofText before) (ofText after)
  layout : ∀ text', SameLines text text' → (ofText text).SameReading (ofText text')
  account : (ofText text).frames.length + (ofText text).skippedLines =
    (text.splitOn '\n').countP fun line => ¬IsBlankLine line

theorem isJoined_ofText (before after : List Char) :
    (ofText (before ++ '\n' :: after)).IsJoined (ofText before) (ofText after) where
  frames_eq := by
    rw [frames_ofText, frames_ofText, frames_ofText, contentLines_newline, List.filterMap_append]
  skippedLines_eq := by
    rw [skippedLines_ofText, skippedLines_ofText, skippedLines_ofText, contentLines_newline,
      List.countP_append]

theorem SameLines.sameReading {text text' : List Char} (hsame : SameLines text text') :
    (ofText text).SameReading (ofText text') where
  frames_eq := by rw [frames_ofText, frames_ofText, hsame.contentLines_eq]
  skippedLines_eq := by rw [skippedLines_ofText, skippedLines_ofText, hsame.contentLines_eq]

/-- Every file that holds a text is loaded line by line. -/
theorem load_line_by_line {t : FileTree} {path : String} {octets : List UInt8} {text : List Char}
    (hread : t.read path = .ok octets) (htext : Utf8.decode? octets = some text) :
    LoadsLineByLine t path text where
  loads := by
    have hwhole : (ofOctets octets).isWhole = true := by rw [ofOctets_of_text htext]
    rw [load_of_isWhole hread hwhole, ofOctets_of_text htext, ofText]
  joined before after hsplit := hsplit ▸ isJoined_ofText before after
  layout _ hsame := SameLines.sameReading hsame
  account := by
    rw [skippedLines, ofText, length_malformedNumbers]
    exact length_filterMap_ofLine? _

/-- A frame and a line that is none. -/
def plainText : List Char :=
  "\x7b\"width\":640,\"height\":480\x7d\n[".toList

/-- The same lines with a carriage return, two blank lines and white space around the second. -/
def airyText : List Char :=
  "\x7b\"width\":640,\"height\":480\x7d\r\n \n\t\n\u00a0[ \n".toList

theorem sameLines_plainText_airyText : SameLines plainText airyText := by
  let frame := "\x7b\"width\":640,\"height\":480\x7d".toList
  have hreturn := LayoutChange.carriageReturn frame ['[']
  have hblank : LayoutChange (frame ++ '\r' :: '\n' :: ['['])
      (frame ++ '\r' :: '\n' :: " \n\t\n[".toList) :=
    @LayoutChange.blankLines (frame ++ ['\r', '\n']) " \n\t".toList ['[']
      (.inr ⟨frame ++ ['\r'], rfl⟩) (by decide)
  have hpadding : LayoutChange (frame ++ '\r' :: '\n' :: " \n\t\n[".toList) airyText :=
    @LayoutChange.padding (frame ++ "\r\n \n\t\n".toList) ['\u00a0'] ['['] " \n".toList []
      (.inr ⟨frame ++ "\r\n \n\t".toList, rfl⟩) (by decide)
      (by decide) (.inl rfl)
  exact .trans _ _ _ (.rel _ _ hreturn) (.trans _ _ _ (.rel _ _ hblank) (.rel _ _ hpadding))

theorem load_line_by_line_airyText :
    let t := treeOfRecording (Utf8.encode airyText)
    t.read "/run" = .ok (Utf8.encode airyText) ∧
      Utf8.decode? (Utf8.encode airyText) = some airyText ∧ SameLines plainText airyText ∧
      (ofText airyText).frames.map (·.size) = [⟨640, 480⟩] ∧ (ofText airyText).skippedLines = 1 ∧
      LoadsLineByLine t "/run" airyText := by
  have hread := read_treeOfRecording (Utf8.encode airyText)
  have htext : Utf8.decode? (Utf8.encode airyText) = some airyText := by decide +kernel
  exact ⟨hread, htext, sameLines_plainText_airyText, by decide +kernel, by decide +kernel,
    load_line_by_line hread htext⟩

end Recording

end ObstacleWatch
