import ObstacleWatch.EventLog
import ObstacleWatch.Proofs.NewEntries
import ObstacleWatch.Proofs.SpelledNumbers
import ObstacleWatch.Proofs.TextOctets
import ObstacleWatch.Proofs.WrittenCharacters

/-!
# A log grows by whole lines

The line of an onset holds one line end only, the one behind it.  It is read as a record of members
that tell what the onset holds: the texts, the integers, and the numbers by digits that round to
them, or by nulls if they are not finite.  An open log leads to its file: while onsets are appended
no path changes its way, so to open the log again is to find the same file with all that it holds.
A run of calls therefore adds the lines of its onsets, one behind the other, and nothing is taken
away.
-/

namespace ObstacleWatch

open Json (Value)

/-! ## Lines of a log -/

/-- What is told of an onset in a log. -/
structure LogEntry where
  timestamp : String
  source : String
  onset : WarnOnset

namespace LogEntry

def fields (e : LogEntry) : List (String × Value) :=
  [("timestamp", .str e.timestamp),
    ("source", .str e.source),
    ("frame_index", .ofInt e.onset.frame),
    ("track_id", .ofInt e.onset.trackId),
    ("class_name", .str e.onset.className),
    ("score", .ofFloat e.onset.score),
    ("pttc_s", .ofFloat e.onset.pttc),
    ("dist_proxy", .ofFloat e.onset.distance),
    ("closing_rate", .ofFloat e.onset.closingRate),
    ("bbox", .array (e.onset.box.edges.map .ofSingle))]

/-- The line of an entry, without its line end. -/
def line (e : LogEntry) : List UInt8 :=
  Utf8.encode (e.onset.logLine e.timestamp e.source)

def doubles (e : LogEntry) : List Float :=
  [e.onset.score, e.onset.pttc, e.onset.distance, e.onset.closingRate]

/-- What the members of a line tell of an entry, under their names. -/
def tellings (e : LogEntry) : List (String × (Value → Prop)) :=
  [("timestamp", (· = .str e.timestamp)),
    ("source", (· = .str e.source)),
    ("frame_index", Value.TellsInt 0 (2 ^ 64 - 1) e.onset.frame),
    ("track_id", Value.TellsInt (-2 ^ 63) (2 ^ 63 - 1) e.onset.trackId),
    ("class_name", (· = .str e.onset.className)),
    ("score", Value.TellsDouble e.onset.score),
    ("pttc_s", Value.TellsDouble e.onset.pttc),
    ("dist_proxy", Value.TellsDouble e.onset.distance),
    ("closing_rate", Value.TellsDouble e.onset.closingRate),
    ("bbox", fun v => ∃ items, v = .array items ∧
      List.Forall₂ Value.TellsSingle e.onset.box.edges items)]

/-- A line that can be read as an entry.  Its text is a record, each member of which tells what the
entry holds under the name: texts character by character, integers as they are, finite numbers by
digits that round to them, and the others by nulls. -/
structure IsOnLine (e : LogEntry) (line : List UInt8) : Prop where
  unbroken : 10 ∉ line
  reads : ∃ members, (Utf8.decode? line).bind Value.parse? = some (.record members) ∧
    List.Forall₂ (fun told member => member.1 = told.1 ∧ told.2 member.2) e.tellings members

variable (e : LogEntry)

theorem line_eq : e.line = Utf8.encode (Value.record e.fields).toChars :=
  rfl

theorem isRegular_record : (Value.record e.fields).IsRegular := by
  have hbox : (Value.array (e.onset.box.edges.map .ofSingle)).IsRegular := by
    refine .array fun v hv => ?_
    obtain ⟨x, -, rfl⟩ := List.mem_map.mp hv
    exact Value.isRegular_ofSingle x
  refine .object ?_
  simp only [fields, List.map_cons, List.map_nil, List.forall_mem_cons]
  exact ⟨.text _, .text _, Value.isRegular_ofInt _, Value.isRegular_ofInt _, .text _,
    Value.isRegular_ofFloat _, Value.isRegular_ofFloat _, Value.isRegular_ofFloat _,
    Value.isRegular_ofFloat _, hbox, nofun⟩

theorem tellings_fields :
    List.Forall₂ (fun told member => member.1 = told.1 ∧ told.2 member.2) e.tellings e.fields := by
  have hbox : List.Forall₂ Value.TellsSingle e.onset.box.edges
      (e.onset.box.edges.map .ofSingle) :=
    List.forall₂_map_right_iff.mpr (List.forall₂_same.mpr fun x _ => Value.tellsSingle_ofSingle x)
  simp only [tellings, fields, List.forall₂_cons, List.Forall₂.nil, and_true, true_and]
  exact ⟨Value.tellsInt_ofInt (by decide) (by decide) _,
    Value.tellsInt_ofInt le_rfl (by decide) _, Value.tellsDouble_ofFloat _,
    Value.tellsDouble_ofFloat _, Value.tellsDouble_ofFloat _, Value.tellsDouble_ofFloat _,
    _, rfl, hbox⟩

theorem parse?_line : (Utf8.decode? e.line).bind Value.parse? = some (.record e.fields) := by
  have hread := Value.ofString?_render e.isRegular_record
  rw [Value.ofString?, Value.render, String.toList_ofList] at hread
  rw [line_eq, Utf8.decode?_encode, Option.bind_some, hread]

theorem isOnLine : e.IsOnLine e.line where
  unbroken := Utf8.newline_notMem_encode e.isRegular_record.newline_notMem
  reads := ⟨_, e.parse?_line, e.tellings_fields⟩

/-- No two entries with finite numbers have the same line. -/
theorem eq_of_line_eq {e e' : LogEntry} (hdoubles : ∀ x ∈ e.doubles, x.isFinite = true)
    (hedges : ∀ x ∈ e.onset.box.edges, x.isFinite = true) (hline : e.line = e'.line) : e = e' := by
  have hfields : e.fields = e'.fields := by
    have hread := e.parse?_line
    rw [hline, e'.parse?_line] at hread
    exact Value.record_injective (Option.some.inj hread).symm
  obtain ⟨timestamp, source, frame, trackId, className, score, pttc, distance, rate, left, top,
    right, bottom⟩ := e
  obtain ⟨timestamp', source', frame', trackId', className', score', pttc', distance', rate',
    left', top', right', bottom'⟩ := e'
  simp only [doubles, Box.edges, List.forall_mem_cons] at hdoubles hedges
  obtain ⟨hscore, hpttc, hdistance, hrate, -⟩ := hdoubles
  obtain ⟨hleft, htop, hright, hbottom, -⟩ := hedges
  simp only [fields, Box.edges, List.map_cons, List.map_nil, List.cons.injEq, Prod.mk.injEq,
    Value.array.injEq, Value.str, Value.text.injEq, Option.some.injEq, true_and,
    and_true] at hfields
  obtain ⟨rfl, rfl, hframe, htrack, rfl, hscores, hpttcs, hdistances, hrates, hlefts, htops,
    hrights, hbottoms⟩ := hfields
  obtain rfl := Int.ofNat_inj.mp (Value.ofInt_injective hframe)
  obtain rfl := Value.ofInt_injective htrack
  obtain rfl := Value.eq_of_ofFloat_eq hscore hscores
  obtain rfl := Value.eq_of_ofFloat_eq hpttc hpttcs
  obtain rfl := Value.eq_of_ofFloat_eq hdistance hdistances
  obtain rfl := Value.eq_of_ofFloat_eq hrate hrates
  obtain rfl := Value.eq_of_ofSingle_eq hleft hlefts
  obtain rfl := Value.eq_of_ofSingle_eq htop htops
  obtain rfl := Value.eq_of_ofSingle_eq hright hrights
  obtain rfl := Value.eq_of_ofSingle_eq hbottom hbottoms
  rfl

end LogEntry

/-! ## Whole lines -/

/-- The octets of lines, each with its line end. -/
def wholeLines (lines : List (List UInt8)) : List UInt8 :=
  lines.flatMap (· ++ [10])

/-- The lines of a file as far as they have a line end. -/
def endedLines (octets : List UInt8) : List (List UInt8) :=
  (octets.splitOn 10).dropLast

/-- Nothing stands behind the last line end. -/
def IsWhole (octets : List UInt8) : Prop :=
  octets = [] ∨ octets.getLast? = some 10

theorem endedLines_append_newline (front rest : List UInt8) :
    endedLines (front ++ 10 :: rest) = front.splitOn 10 ++ endedLines rest := by
  rw [endedLines, List.splitOn_append_cons_self,
    List.dropLast_append_of_ne_nil (List.splitOn_ne_nil _ _), endedLines]

variable {before : List UInt8} {lines : List (List UInt8)}

theorem endedLines_wholeLines (hlines : ∀ line ∈ lines, 10 ∉ line) :
    endedLines (wholeLines lines) = lines := by
  induction lines with
  | nil => rfl
  | cons line lines ih =>
      obtain ⟨hline, hlines⟩ := List.forall_mem_cons.mp hlines
      rw [wholeLines, List.flatMap_cons, List.append_assoc, List.singleton_append,
        endedLines_append_newline, List.splitOn_eq_singleton hline, ← wholeLines, ih hlines,
        List.singleton_append]

theorem endedLines_append_wholeLines (hends : IsWhole before)
    (hlines : ∀ line ∈ lines, 10 ∉ line) :
    endedLines (before ++ wholeLines lines) = endedLines before ++ lines := by
  obtain rfl | hlast := hends
  · exact endedLines_wholeLines hlines
  · obtain ⟨front, rfl⟩ := List.getLast?_eq_some_iff.mp hlast
    rw [List.append_assoc, List.singleton_append, endedLines_append_newline,
      endedLines_append_newline, endedLines_wholeLines hlines]
    simp [endedLines]

/-! ## Calls on a log -/

inductive LogCall where
  /-- The log is opened again under its path. -/
  | reopen
  | append (entry : LogEntry)

namespace LogCall

def entry? : LogCall → Option LogEntry
  | reopen => none
  | append e => some e

def run (path : String) : FileTree × EventLog → LogCall → Except Failure (FileTree × EventLog)
  | (t, _), reopen => EventLog.openAt t path
  | (t, log), append e => log.append t e.timestamp e.source e.onset

/-- The lines that calls append. -/
def addedLines (calls : List LogCall) : List (List UInt8) :=
  (calls.filterMap entry?).map LogEntry.line

end LogCall

/-! ## An open log -/

namespace EventLog

variable {t : FileTree} {log : EventLog} {path : String} {location : Location}
  {content octets : List UInt8}

/-- The log was opened under the path, and the path leads to its file. -/
structure IsOpen (path : String) (location : Location) (content : List UInt8) (t : FileTree)
    (log : EventLog) : Prop where
  path_eq : log.path = path
  location_eq : log.location = location
  no_slash : (path.toList.getLast? == some '/') = false
  leads : t.resolve path true = .ok (.found location (.file content))
  parent : ∀ parent ∈ Path.parent? path, parent.isEmpty = true ∨ t.isDirectory parent = true

theorem IsOpen.entry?_eq (hopen : IsOpen path location content t log) :
    t.entry? location = some (.file content) :=
  (FileTree.tells_of_resolve hopen.leads).resolve_left nofun

theorem IsOpen.read_eq (hopen : IsOpen path location content t log) :
    t.read path = .ok content := by
  rw [FileTree.read, hopen.leads]

theorem IsOpen.openAt_eq (hopen : IsOpen path location content t log) :
    openAt t path = .ok (t, ⟨path, location, 0⟩) := by
  have hfile : t.openForAppend path = .ok (t, location) := by
    simp [FileTree.openForAppend, hopen.no_slash, hopen.leads, bind, Except.bind, pure,
      Except.pure]
  cases hparent : Path.parent? path with
  | none => simp [openAt, hparent, hfile, Except.mapError, bind, Except.bind, pure, Except.pure]
  | some parent =>
      have hmade : t.makeDirectories parent = .ok t := by
        obtain hempty | hdirectory := hopen.parent parent hparent
        · unfold FileTree.makeDirectories FileTree.makeDirectoriesWithin
          rw [if_pos hempty]
        · exact FileTree.makeDirectories_of_isDirectory hdirectory
      simp [openAt, hparent, hmade, hfile, Except.mapError, bind, Except.bind, pure, Except.pure]

theorem IsOpen.append_eq (hopen : IsOpen path location content t log) (e : LogEntry) :
    log.append t e.timestamp e.source e.onset =
      .ok (t.put location (.file (content ++ (e.line ++ [10]))),
        { log with written := log.written + 1 }) := by
  have hline : Utf8.encode (e.onset.logLine e.timestamp e.source ++ ['\n']) = e.line ++ [10] :=
    Utf8.encode_append _ _
  have hwritten : t.append location (e.line ++ [10]) =
      .ok (t.put location (.file (content ++ (e.line ++ [10])))) :=
    FileTree.append_eq_ok_iff.mpr (.inl ⟨content, hopen.entry?_eq, rfl⟩)
  simp [append, hline, hopen.location_eq, hwritten, Except.mapError, bind, Except.bind, pure,
    Except.pure]

/-- What is written to the file turns no path away. -/
theorem IsOpen.put (hopen : IsOpen path location content t log) (octets : List UInt8)
    (written : Nat) :
    IsOpen path location octets (t.put location (.file octets)) { log with written } where
  path_eq := hopen.path_eq
  location_eq := hopen.location_eq
  no_slash := hopen.no_slash
  leads := by
    rw [FileTree.resolve_put_file hopen.entry?_eq, hopen.leads]
    simp [Except.map, PathTarget.refill]
  parent := by
    intro parent hparent
    rw [FileTree.isDirectory_put_file hopen.entry?_eq]
    exact hopen.parent parent hparent

theorem openAt_eq_ok {t' : FileTree} (hopened : openAt t path = .ok (t', log)) :
    ∃ middle, t.GainsDirectories middle ∧
      (∀ parent ∈ Path.parent? path, parent.isEmpty = true ∨ middle.isDirectory parent = true) ∧
      middle.openForAppend path = .ok (t', log.location) ∧ log.path = path ∧ log.written = 0 := by
  cases hparent : Path.parent? path with
  | none =>
      simp only [openAt, hparent, pure_bind, bind_eq_ok_iff, mapError_eq_ok_iff] at hopened
      obtain ⟨⟨tree, location⟩, hfile, hlast⟩ := hopened
      obtain ⟨rfl, rfl⟩ := Prod.mk.inj (Except.ok.inj hlast)
      exact ⟨t, .refl t, nofun, hfile, rfl, rfl⟩
  | some parent =>
      simp only [openAt, hparent, bind_eq_ok_iff, mapError_eq_ok_iff] at hopened
      obtain ⟨middle, hmade, ⟨tree, location⟩, hfile, hlast⟩ := hopened
      obtain ⟨rfl, rfl⟩ := Prod.mk.inj (Except.ok.inj hlast)
      obtain ⟨hgains, hdirectory⟩ := FileTree.gainsDirectories_of_makeDirectoriesWithin hmade
      refine ⟨middle, hgains, ?_, hfile, rfl, rfl⟩
      rintro _ ⟨⟩
      exact hdirectory

/-- A log that was opened leads to its file, which holds what it held before. -/
theorem isOpen_of_openAt {t' : FileTree} (hopened : openAt t path = .ok (t', log))
    (hfile : t.entry? log.location = some (.file content) ∨
      t.entry? log.location = none ∧ content = []) :
    IsOpen path log.location content t' log ∧ log.written = 0 := by
  obtain ⟨middle, hgains, hparent, hopened, hpath, hwritten⟩ := openAt_eq_ok hopened
  obtain ⟨hslash, hopened⟩ := FileTree.openForAppend_eq_ok hopened
  refine ⟨?_, hwritten⟩
  -- Only directories were made, so a file that is there now was there before.
  obtain ⟨entry, hleaf, hfound, rfl⟩ | ⟨hvacant, rfl⟩ := hopened
  · have hentry : t'.entry? log.location = some entry := by
      refine (FileTree.tells_of_resolve hfound).resolve_left ?_
      rintro rfl
      contradiction
    have hsame : t'.entry? log.location = t.entry? log.location := by
      refine (hgains.entry?_cases log.location).resolve_right fun hnew => ?_
      rw [hentry] at hnew
      cases hnew
      contradiction
    obtain hfile | ⟨hnone, -⟩ := hfile
    · rw [hsame, hfile] at hentry
      obtain rfl := Option.some.inj hentry
      exact ⟨hpath, rfl, hslash, hfound, hparent⟩
    · rw [hsame, hnone] at hentry
      contradiction
  · have hfree : middle.entry? log.location = none := FileTree.tells_of_resolve hvacant
    have hbefore : t.entry? log.location = none := by
      obtain hsame | hnew := hgains.entry?_cases log.location
      · rw [← hsame, hfree]
      · rw [hfree] at hnew
        contradiction
    obtain hfile | ⟨-, rfl⟩ := hfile
    · rw [hbefore] at hfile
      contradiction
    · refine ⟨hpath, rfl, hslash, FileTree.resolve_put_of_vacant nofun hfree hvacant, ?_⟩
      intro parent hmem
      exact (hparent parent hmem).imp_right (FileTree.isDirectory_put hfree)

end EventLog

/-! ## A run of calls -/

/-- What a run of calls makes of a file: the lines of its appends come behind what was there, each
can be read as its entry, and the appends since the log was opened last are counted. -/
structure GrowsByLines (path : String) (location : Location) (before : List UInt8)
    (calls : List LogCall) (after : FileTree) (log : EventLog) : Prop where
  content : after.entry? location = some (.file (before ++ wholeLines (LogCall.addedLines calls)))
  reads : after.read path = .ok (before ++ wholeLines (LogCall.addedLines calls))
  lines : endedLines (before ++ wholeLines (LogCall.addedLines calls)) =
    endedLines before ++ LogCall.addedLines calls
  entries : List.Forall₂ LogEntry.IsOnLine (calls.filterMap LogCall.entry?)
    (LogCall.addedLines calls)
  written : log.written = (calls.rtakeWhile fun call => call.entry?.isSome).length

namespace LogCall

variable {t : FileTree} {path : String} {start : FileTree × EventLog} {before : List UInt8}

theorem foldlM_run_concat (calls : List LogCall) (call : LogCall)
    {state : FileTree × EventLog} (hrun : calls.foldlM (run path) start = .ok state) :
    (calls ++ [call]).foldlM (run path) start = run path state call := by
  rw [List.foldlM_append, hrun]
  exact bind_pure (run path state call)

/-- A call keeps the log open and adds its lines. -/
theorem isOpen_after_call {location : Location} {log : EventLog}
    (hopen : EventLog.IsOpen path location before t log) (call : LogCall) :
    ∃ after log', run path (t, log) call = .ok (after, log') ∧
      EventLog.IsOpen path location (before ++ wholeLines (addedLines [call])) after log' ∧
      log'.written = if call.entry?.isSome then log.written + 1 else 0 := by
  cases call with
  | reopen =>
      have hline : before ++ wholeLines (addedLines [reopen]) = before := List.append_nil _
      rw [hline]
      exact ⟨t, ⟨path, location, 0⟩, hopen.openAt_eq,
        { hopen with path_eq := rfl, location_eq := rfl }, rfl⟩
  | append e =>
      refine ⟨_, _, hopen.append_eq e, ?_, rfl⟩
      have hline : wholeLines (addedLines [append e]) = e.line ++ [10] := List.append_nil _
      rw [hline]
      exact hopen.put _ _

/-- A run keeps the log open and adds the lines of its appends. -/
theorem isOpen_after_run (hstart : EventLog.IsOpen path start.2.location before start.1 start.2)
    (hwritten : start.2.written = 0) (calls : List LogCall) :
    ∃ after log, calls.foldlM (run path) start = .ok (after, log) ∧
      EventLog.IsOpen path start.2.location (before ++ wholeLines (addedLines calls)) after log ∧
      log.written = (calls.rtakeWhile fun call => call.entry?.isSome).length := by
  induction calls using List.reverseRecOn with
  | nil => exact ⟨start.1, start.2, rfl, by simpa [addedLines, wholeLines] using hstart, hwritten⟩
  | append_singleton calls call ih =>
      obtain ⟨middle, log, hrun, hopen, hcount⟩ := ih
      obtain ⟨after, log', hcall, hopen', hcount'⟩ := isOpen_after_call hopen call
      refine ⟨after, log', (foldlM_run_concat calls call hrun).trans hcall, ?_, ?_⟩
      · have hlines : wholeLines (addedLines (calls ++ [call])) =
            wholeLines (addedLines calls) ++ wholeLines (addedLines [call]) := by
          simp [addedLines, wholeLines]
        rwa [hlines, ← List.append_assoc]
      · rw [hcount', List.rtakeWhile_concat, hcount]
        split_ifs <;> simp

end LogCall

/-- A log that is open stays so whatever is called, and its file grows by the lines of the onsets
that are appended. -/
theorem log_grows_by_lines {t : FileTree} {path : String} {start : FileTree × EventLog}
    {before : List UInt8} (hopened : EventLog.openAt t path = .ok start)
    (hfile : t.entry? start.2.location = some (.file before) ∨
      t.entry? start.2.location = none ∧ before = [])
    (hends : IsWhole before) (calls : List LogCall) :
    ∃ after log, calls.foldlM (LogCall.run path) start = .ok (after, log) ∧
      GrowsByLines path start.2.location before calls after log := by
  obtain ⟨hstart, hwritten⟩ := EventLog.isOpen_of_openAt hopened hfile
  obtain ⟨after, log, hrun, hopen, hcount⟩ := LogCall.isOpen_after_run hstart hwritten calls
  refine ⟨after, log, hrun, ?_⟩
  have hlines : ∀ line ∈ LogCall.addedLines calls, 10 ∉ line := by
    intro line hline
    obtain ⟨e, -, rfl⟩ := List.mem_map.mp hline
    exact e.isOnLine.unbroken
  exact
    { content := hopen.entry?_eq
      reads := hopen.read_eq
      lines := endedLines_append_wholeLines hends hlines
      entries := List.forall₂_map_right_iff.mpr (List.forall₂_same.mpr fun e _ => e.isOnLine)
      written := hcount }

/-- A log with one line, in a directory that a link leads to. -/
def linkedLogTree : FileTree :=
  ⟨[(["w"], .directory), (["w", "logs"], .link "store"), (["w", "store"], .directory),
    (["w", "store", "warn.jsonl"], .file [0x7b, 0x7d, 10])], ["w"]⟩

def linkedLog : EventLog :=
  ⟨"logs/warn.jsonl", ["w", "store", "warn.jsonl"], 0⟩

/-- Line ends, quotes and control characters in the texts, integers at the ends of their ranges, and
numbers without digits. -/
def awkwardEntry : LogEntry where
  timestamp := "2024-05-01T10:00:00+02:00"
  source := "cam\n\"1\"\r\x00"
  onset :=
    { frame := 2 ^ 64 - 1
      trackId := -2 ^ 63
      className := "a\\b\n\x1b中"
      score := 0 / 0
      pttc := 1 / 0
      distance := 0.1
      closingRate := -1 / 0
      box := ⟨-1.5, 0 / 0, 1 / 0, 640⟩ }

/-- The line of the entry, as a text. -/
def awkwardText : String :=
  "\x7b\"timestamp\":\"2024-05-01T10:00:00+02:00\",\"source\":\"cam\\n\\\"1\\\"\\r\\u0000\"," ++
    "\"frame_index\":18446744073709551615,\"track_id\":-9223372036854775808," ++
    "\"class_name\":\"a\\\\b\\n\\u001b中\",\"score\":null,\"pttc_s\":null,\"dist_proxy\":0.1," ++
    "\"closing_rate\":null,\"bbox\":[-1.5,null,null,640.0]\x7d"

theorem isOpen_linkedLog :
    EventLog.IsOpen "logs/warn.jsonl" linkedLog.location [0x7b, 0x7d, 10] linkedLogTree
      linkedLog where
  path_eq := rfl
  location_eq := rfl
  no_slash := by decide +kernel
  leads := FileTree.find?_eq_some_iff.mp (by decide +kernel)
  parent := by
    have hparent : Path.parent? "logs/warn.jsonl" = some "logs" := by decide +kernel
    rw [hparent]
    rintro _ ⟨⟩
    exact .inr (by decide +kernel)

theorem log_grows_by_lines_awkward :
    EventLog.openAt linkedLogTree "logs/warn.jsonl" = .ok (linkedLogTree, linkedLog) ∧
      awkwardEntry.line = Utf8.encode awkwardText.toList ∧
      ∃ after log, [.append awkwardEntry, .reopen, .append awkwardEntry].foldlM
          (LogCall.run "logs/warn.jsonl") (linkedLogTree, linkedLog) = .ok (after, log) ∧
        GrowsByLines "logs/warn.jsonl" linkedLog.location [0x7b, 0x7d, 10]
          [.append awkwardEntry, .reopen, .append awkwardEntry] after log ∧
        log.written = 1 := by
  have hopened : EventLog.openAt linkedLogTree "logs/warn.jsonl" =
      .ok (linkedLogTree, linkedLog) := isOpen_linkedLog.openAt_eq
  refine ⟨hopened, by decide +kernel, ?_⟩
  obtain ⟨after, log, hrun, hgrows⟩ :=
    log_grows_by_lines hopened (.inl rfl) (.inr rfl)
      [.append awkwardEntry, .reopen, .append awkwardEntry]
  exact ⟨after, log, hrun, hgrows, hgrows.written⟩

end ObstacleWatch
