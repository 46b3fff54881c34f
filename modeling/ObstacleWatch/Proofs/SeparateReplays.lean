import ObstacleWatch.Proofs.OnsetLog

/-!
# Recordings are replayed apart from each other

The command replays one recording after the other into one log.  Each replay starts with a new
pipeline, and all that it leaves behind is what it appends to the log; no other file changes, so as
long as no recording is the log itself, the next recording is read as if it came first.  What comes
of a recording therefore depends on the settings and on its own lines only, and the log grows by
what each recording alone would add to it, one after the other.
-/

namespace ObstacleWatch

open Command (Clock)

/-! ## A growing log -/

namespace EventSink

/-- The log takes whatever is written to it. -/
def Writable (sink : EventSink) : Prop :=
  ∀ log, sink.log = some log → ∀ octets, ∃ tree, sink.tree.append log.location octets = .ok tree

/-- The path does not lead to the log. -/
def IsApart (sink : EventSink) (path : String) : Prop :=
  ∀ log, sink.log = some log → sink.tree.place? path ≠ some log.location

/-- A sink turns into another one by lines that are appended to its log.  Nothing else changes, and
what does not lead to the log is read as before. -/
structure GrowsBy (octets : List UInt8) (lines : Nat) (before after : EventSink) : Prop where
  log_eq : after.log = before.log.map fun log => { log with written := log.written + lines }
  octets_eq : ∀ log known, before.log = some log →
    before.tree.entry? log.location = some (.file known) →
    after.tree.entry? log.location = some (.file (known ++ octets))
  elsewhere : ∀ place, (∀ log, before.log = some log → place ≠ log.location) →
    after.tree.entry? place = before.tree.entry? place
  writable : before.Writable → after.Writable
  isApart : ∀ path, before.IsApart path → after.IsApart path
  read_eq : ∀ path, before.IsApart path → after.tree.read path = before.tree.read path

variable {octets octets' : List UInt8} {lines lines' : Nat} {log : EventLog}
  {sink before after : EventSink}

theorem GrowsBy.refl (sink : EventSink) : GrowsBy [] 0 sink sink where
  log_eq := by cases sink.log <;> rfl
  octets_eq _ known _ hknown := by rw [hknown, List.append_nil]
  elsewhere _ _ := rfl
  writable := id
  isApart _ := id
  read_eq _ _ := rfl

theorem GrowsBy.log_of_some (hgrows : GrowsBy octets lines before after)
    (hlog : before.log = some log) :
    after.log = some { log with written := log.written + lines } := by
  rw [hgrows.log_eq, hlog]
  rfl

theorem GrowsBy.trans (hfirst : GrowsBy octets lines before sink)
    (hlater : GrowsBy octets' lines' sink after) :
    GrowsBy (octets ++ octets') (lines + lines') before after where
  log_eq := by
    rw [hlater.log_eq, hfirst.log_eq, Option.map_map]
    cases before.log with
    | none => rfl
    | some log => exact congrArg some (by simp [Nat.add_assoc])
  octets_eq log known hlog hknown := by
    have hmiddle := hfirst.octets_eq log known hlog hknown
    rw [hlater.octets_eq _ _ (hfirst.log_of_some hlog) hmiddle, List.append_assoc]
  elsewhere place hplace := by
    rw [hlater.elsewhere place, hfirst.elsewhere place hplace]
    intro log hlog
    cases hbefore : before.log with
    | none =>
        rw [hfirst.log_eq, hbefore] at hlog
        contradiction
    | some first =>
        rw [hfirst.log_of_some hbefore] at hlog
        cases hlog
        exact hplace first hbefore
  writable hwritable := hlater.writable (hfirst.writable hwritable)
  isApart path hapart := hlater.isApart path (hfirst.isApart path hapart)
  read_eq path hapart :=
    (hlater.read_eq path (hfirst.isApart path hapart)).trans (hfirst.read_eq path hapart)

/-- A log that is a file grows by what is appended to it. -/
theorem growsBy_of_file {known : List UInt8} (hlog : sink.log = some log)
    (hfile : sink.tree.entry? log.location = some (.file known)) (octets : List UInt8) :
    GrowsBy octets 1 sink
      ⟨sink.tree.put log.location (.file (known ++ octets)),
        some { log with written := log.written + 1 }⟩ where
  log_eq := by rw [hlog, Option.map_some]
  octets_eq other known' hother hknown := by
    obtain rfl : log = other := Option.some.inj (hlog.symm.trans hother)
    rw [hfile] at hknown
    cases hknown
    rw [FileTree.entry?_put_file hfile, if_pos rfl]
  elsewhere place hplace := by
    rw [FileTree.entry?_put_file hfile, if_neg (hplace log hlog)]
  writable _ := by
    intro other hother octets'
    cases hother
    refine ⟨_, FileTree.append_eq_ok_iff.mpr (.inl ⟨known ++ octets, ?_, rfl⟩)⟩
    rw [FileTree.entry?_put_file hfile, if_pos rfl]
  isApart path hapart := by
    intro other hother
    cases hother
    rw [FileTree.place?_put_file hfile]
    exact hapart log hlog
  read_eq path hapart := FileTree.read_put_file hfile (hapart log hlog)

/-- A log that is a device only counts. -/
theorem growsBy_of_device (hlog : sink.log = some log)
    (hdevice : sink.tree.entry? log.location = some (.device .sink)) (octets : List UInt8) :
    GrowsBy octets 1 sink ⟨sink.tree, some { log with written := log.written + 1 }⟩ where
  log_eq := by rw [hlog, Option.map_some]
  octets_eq other known hother hknown := by
    obtain rfl : log = other := Option.some.inj (hlog.symm.trans hother)
    rw [hdevice] at hknown
    cases hknown
  elsewhere _ _ := rfl
  writable hwritable := by
    intro other hother
    cases hother
    exact hwritable log hlog
  isApart path hapart := by
    intro other hother
    cases hother
    exact hapart log hlog
  read_eq _ _ := rfl

/-- Without a log nothing is kept. -/
theorem growsBy_of_none (hlog : sink.log = none) (octets : List UInt8) (lines : Nat) :
    GrowsBy octets lines sink sink where
  log_eq := by rw [hlog, Option.map_none]
  octets_eq log known hother _ := by
    rw [hlog] at hother
    contradiction
  elsewhere _ _ := rfl
  writable := id
  isApart _ := id
  read_eq _ _ := rfl

theorem GrowsBy.of_octets_eq (hgrows : GrowsBy octets lines before after)
    (hoctets : before.log.isSome = true → octets = octets') :
    GrowsBy octets' lines before after := by
  cases hlog : before.log with
  | some log => exact hoctets (by rw [hlog]; rfl) ▸ hgrows
  | none =>
      refine { hgrows with octets_eq := ?_ }
      intro log known hother
      rw [hlog] at hother
      contradiction

/-! ### Stamped lines -/

/-- How often the time is asked for to write some lines: without a log there is nothing to stamp. -/
def readings (sink : EventSink) (lines : Nat) : Nat :=
  if sink.log.isSome then lines else 0

theorem GrowsBy.readings_eq (hgrows : GrowsBy octets lines before after) (lines' : Nat) :
    after.readings lines' = before.readings lines' := by
  rw [readings, hgrows.log_eq, Option.isSome_map, readings]

theorem readings_add (sink : EventSink) (lines lines' : Nat) :
    sink.readings (lines + lines') = sink.readings lines + sink.readings lines' := by
  rw [readings, readings, readings]
  split_ifs <;> rfl

/-- A sink takes onsets in, each with a time of its own if there is a log. -/
structure Takes (stamps : Nat → String) (source : String) (onsets : List WarnOnset)
    (before after : EventSink × ClockUse) : Prop where
  grows : GrowsBy (loggedOctets stamps before.2.readings source onsets) onsets.length
    before.1 after.1
  use_eq : after.2 = before.2.read (before.1.readings onsets.length)

section

variable {stamps : Nat → String} {source : String} {onsets later : List WarnOnset}
  {first middle last : EventSink × ClockUse}

theorem Takes.refl (state : EventSink × ClockUse) : Takes stamps source [] state state where
  grows := .refl state.1
  use_eq := by
    rw [readings, List.length_nil, ite_self]
    rfl

theorem Takes.trans (htakes : Takes stamps source onsets first middle)
    (hlater : Takes stamps source later middle last) :
    Takes stamps source (onsets ++ later) first last where
  grows := by
    rw [loggedOctets_append, List.length_append]
    refine htakes.grows.trans (hlater.grows.of_octets_eq fun hsome => ?_)
    have hlog : first.1.log.isSome = true := by
      rwa [htakes.grows.log_eq, Option.isSome_map] at hsome
    rw [htakes.use_eq, readings, if_pos hlog, ClockUse.read]
  use_eq := by
    rw [hlater.use_eq, htakes.use_eq, ClockUse.read_read, htakes.grows.readings_eq,
      ← readings_add, List.length_append]

end

theorem exists_take (hwritable : sink.Writable) (stamps : Nat → String) (source : String)
    (use : ClockUse) (event : AlarmEvent) :
    ∃ after, (sink.take (Clock.next stamps) source event).run use = (.ok after.1, after.2) ∧
      Takes stamps source (warnOnsets [event]) (sink, use) after := by
  cases event with
  | levelChanged change => exact ⟨(sink, use), rfl, .refl _⟩
  | warnOnset w =>
      cases hlog : sink.log with
      | none =>
          refine ⟨(sink, use), ?_, growsBy_of_none hlog _ _, ?_⟩
          · simp only [take, hlog]
            rfl
          · simp only [readings, hlog]
            rfl
      | some log =>
          obtain ⟨tree, happend⟩ := hwritable log hlog
            (Utf8.encode (w.logLine (stamps use.readings) source ++ ['\n']))
          have honset : loggedOctets stamps use.readings source (warnOnsets [.warnOnset w]) =
              Utf8.encode (w.logLine (stamps use.readings) source ++ ['\n']) :=
            loggedOctets_singleton use.readings w
          refine ⟨(⟨tree, some { log with written := log.written + 1 }⟩, use.read 1), ?_, ?_, ?_⟩
          · rw [run_take_warnOnset hlog]
            simp only [EventLog.append, happend, Except.mapError, Except.map, bind, Except.bind,
              pure, Except.pure]
          · rw [honset]
            obtain ⟨known, hfile, rfl⟩ | ⟨hdevice, rfl⟩ := FileTree.append_eq_ok_iff.mp happend
            · exact growsBy_of_file hlog hfile _
            · exact growsBy_of_device hlog hdevice _
          · simp only [readings, hlog]
            rfl

theorem exists_takeAll (hwritable : sink.Writable) (stamps : Nat → String) (source : String)
    (use : ClockUse) (events : List AlarmEvent) :
    ∃ after, (sink.takeAll (Clock.next stamps) source events).run use =
        (⟨after.1, events.flatMap AlarmEvent.commandRecords, none⟩, after.2) ∧
      Takes stamps source (warnOnsets events) (sink, use) after := by
  induction events generalizing sink use with
  | nil => exact ⟨(sink, use), rfl, .refl _⟩
  | cons event events ih =>
      obtain ⟨middle, htake, hfirst⟩ := exists_take hwritable stamps source use event
      obtain ⟨after, hrest, hlater⟩ := ih (hfirst.grows.writable hwritable) middle.2
      have honsets : warnOnsets (event :: events) = warnOnsets [event] ++ warnOnsets events :=
        warnOnsets_append [event] events
      refine ⟨after, ?_, ?_⟩
      · rw [run_takeAll_cons, htake]
        simp only [hrest]
        rfl
      · rw [honsets]
        exact hfirst.trans hlater

end EventSink

/-! ## What comes of a recording, the log aside -/

/-- The pipeline behind some frames, what is reported of them, and the onsets that go to the log. -/
structure FramesAccount where
  pipeline : Pipeline
  records : List Log.Record
  onsets : List WarnOnset

def Pipeline.account (p : Pipeline) : List Frame → FramesAccount
  | [] => ⟨p, [], []⟩
  | frame :: frames =>
      let (processed, outcome) := p.process frame
      let (drained, events) := processed.drainEvents
      let later := drained.account frames
      { later with
        records := outcome.records ++ events.flatMap AlarmEvent.commandRecords ++ later.records
        onsets := warnOnsets events ++ later.onsets }

theorem Replay.exists_run {sink : EventSink} (hwritable : sink.Writable) (stamps : Nat → String)
    (source : String) (use : ClockUse) (p : Pipeline) (frames : List Frame) :
    ∃ after, (run (Clock.next stamps) source ⟨p, sink⟩ frames).run use =
        (⟨⟨(p.account frames).pipeline, after.1⟩, (p.account frames).records, none⟩, after.2) ∧
      EventSink.Takes stamps source (p.account frames).onsets (sink, use) after := by
  induction frames generalizing p sink use with
  | nil => exact ⟨(sink, use), rfl, .refl _⟩
  | cons frame frames ih =>
      obtain ⟨middle, htaken, hfirst⟩ := EventSink.exists_takeAll hwritable stamps source use
        (p.process frame).1.drainEvents.2
      obtain ⟨after, hrest, hlater⟩ := ih (hfirst.grows.writable hwritable) middle.2
        (p.process frame).1.drainEvents.1
      refine ⟨after, ?_, hfirst.trans hlater⟩
      rw [run_run_cons, run_step]
      simp only [htaken, hrest]
      rfl

namespace Command

/-- What is reported of a recording, the onsets that go to the log, and the summary. -/
structure PathAccount where
  records : List Log.Record
  onsets : List WarnOnset
  summary : Except Failure (Nat × Counters)

def PathAccount.ofPath (settings : Settings) (t : FileTree) (path : String) : PathAccount :=
  let (loaded, loadRecords) := Recording.load t path
  match loaded with
  | .error failure => ⟨loadRecords, [], .error failure⟩
  | .ok recording =>
      match Pipeline.ofSettings settings.risk (Replay.fpsSource settings recording)
          settings.output.maxPendingEvents with
      | .error e => ⟨loadRecords, [], .error (.of e.message)⟩
      | .ok pipeline =>
          let account := pipeline.account recording.frames
          ⟨loadRecords ++ account.records, account.onsets,
            .ok (recording.skippedLines, account.pipeline.counters)⟩

variable {settings : Settings} {sink next : EventSink} {t t' : FileTree} {path : String}

theorem PathAccount.ofPath_eq_of_read (hread : t.read path = t'.read path) :
    PathAccount.ofPath settings t path = PathAccount.ofPath settings t' path := by
  have hload : Recording.load t path = Recording.load t' path := by
    rw [Recording.load, Recording.load, hread]
  rw [PathAccount.ofPath, PathAccount.ofPath, hload]

/-- A replay reports what its recording gives, and the log grows by its onsets. -/
theorem PathReplay.exists_ofPath (hwritable : sink.Writable) (stamps : Nat → String)
    (use : ClockUse) (settings : Settings) (path : String) :
    ∃ after, (PathReplay.ofPath (Clock.next stamps) settings sink path).run use =
        (⟨after.1, (PathAccount.ofPath settings sink.tree path).records,
          (PathAccount.ofPath settings sink.tree path).summary⟩, after.2) ∧
      EventSink.Takes stamps path (PathAccount.ofPath settings sink.tree path).onsets
        (sink, use) after := by
  unfold PathAccount.ofPath
  rcases hload : Recording.load sink.tree path with ⟨failure | recording, loadRecords⟩
  · refine ⟨(sink, use), ?_, .refl _⟩
    simp only [ofPath, hload]
    rfl
  cases hpipeline : Pipeline.ofSettings settings.risk (Replay.fpsSource settings recording)
      settings.output.maxPendingEvents with
  | error e =>
      simp only [hpipeline]
      exact ⟨(sink, use), Replay.run_ofPath_of_refused hload hpipeline, .refl _⟩
  | ok pipeline =>
      obtain ⟨after, hrun, htakes⟩ :=
        Replay.exists_run hwritable stamps path use pipeline recording.frames
      simp only [hpipeline]
      refine ⟨after, ?_, htakes⟩
      rw [Replay.run_ofPath hload hpipeline, hrun]

/-! ## All recordings -/

/-- The records that the command puts out for one of the recordings. -/
def pathSection (total number : Nat) (path : String) (r : PathReplay) (seconds : Float) :
    List Log.Record :=
  [ruler, info s!"Replaying {number}/{total}: {path}", ruler] ++ r.records ++
    r.closing path seconds

/-- What comes of a replay with a clock that was not asked before. -/
def replayAlone (stamps : Nat → String) (settings : Settings) (sink : EventSink) (path : String) :
    PathReplay :=
  ((PathReplay.ofPath (Clock.next stamps) settings sink path).run ⟨0, 0⟩).1

section

variable {stamps : Nat → String} {seconds : Nat → Float} {paths : List String}
  {octets : List UInt8} {lines : Nat}

/-- The octets that the recordings add to the log, one after the other, stamped with the times from
a number on. -/
def addedOctets (stamps : Nat → String) (settings : Settings) (t : FileTree) :
    Nat → List String → List UInt8
  | _, [] => []
  | first, path :: rest =>
      let onsets := (PathAccount.ofPath settings t path).onsets
      loggedOctets stamps first path onsets ++
        addedOctets stamps settings t (first + onsets.length) rest

def addedLines (settings : Settings) (t : FileTree) (paths : List String) : Nat :=
  (paths.map fun path => (PathAccount.ofPath settings t path).onsets.length).sum

/-- The records of all recordings, each replayed alone. -/
def sectionsAlone (stamps : Nat → String) (seconds : Nat → Float) (settings : Settings)
    (sink : EventSink) (total : Nat) (paths : List String) (number : Nat) : List Log.Record :=
  (paths.zipIdx number).flatMap fun p =>
    pathSection total (p.2 + 1) p.1 (replayAlone stamps settings sink p.1) (seconds p.2)

theorem addedOctets_congr (hread : ∀ path ∈ paths, t.read path = t'.read path) (first : Nat) :
    addedOctets stamps settings t first paths = addedOctets stamps settings t' first paths := by
  induction paths generalizing first with
  | nil => rfl
  | cons path rest ih =>
      obtain ⟨hpath, hrest⟩ := List.forall_mem_cons.mp hread
      rw [addedOctets, addedOctets, PathAccount.ofPath_eq_of_read hpath, ih hrest]

theorem addedLines_congr (hread : ∀ path ∈ paths, t.read path = t'.read path) :
    addedLines settings t paths = addedLines settings t' paths := by
  refine congrArg List.sum (List.map_congr_left fun path hpath => ?_)
  rw [PathAccount.ofPath_eq_of_read (hread path hpath)]

theorem exists_replayAlone (hwritable : sink.Writable) (stamps : Nat → String)
    (settings : Settings) (path : String) :
    ∃ after, replayAlone stamps settings sink path =
        ⟨after, (PathAccount.ofPath settings sink.tree path).records,
          (PathAccount.ofPath settings sink.tree path).summary⟩ ∧
      EventSink.GrowsBy
        (loggedOctets stamps 0 path (PathAccount.ofPath settings sink.tree path).onsets)
        (PathAccount.ofPath settings sink.tree path).onsets.length sink after := by
  obtain ⟨after, hreplay, htakes⟩ :=
    PathReplay.exists_ofPath hwritable stamps ⟨0, 0⟩ settings path
  exact ⟨after.1, congrArg Prod.fst hreplay, htakes.grows⟩

/-- What the log holds already does not show in what is reported of a recording. -/
theorem sectionsAlone_of_growsBy (hwritable : sink.Writable)
    (hgrows : EventSink.GrowsBy octets lines sink next)
    (hapart : ∀ path ∈ paths, sink.IsApart path) (total number : Nat) :
    sectionsAlone stamps seconds settings next total paths number =
      sectionsAlone stamps seconds settings sink total paths number := by
  refine List.flatMap_congr fun p hp => ?_
  have hread := hgrows.read_eq p.1 (hapart p.1 (List.fst_mem_of_mem_zipIdx hp))
  obtain ⟨_, hnext, -⟩ := exists_replayAlone (hgrows.writable hwritable) stamps settings p.1
  obtain ⟨_, hsink, -⟩ := exists_replayAlone hwritable stamps settings p.1
  rw [PathAccount.ofPath_eq_of_read hread] at hnext
  rw [hnext, hsink]
  rfl

theorem run_replayPaths_cons (settings : Settings) (total number : Nat) (sink : EventSink)
    (path : String) (rest : List String) (use : ClockUse) :
    (replayPaths (Clock.reading stamps seconds) settings total number sink (path :: rest)).run use =
      let r := (PathReplay.ofPath (Clock.next stamps) settings sink path).run use
      let later := (replayPaths (Clock.reading stamps seconds) settings total (number + 1) r.1.sink
        rest).run { r.2 with timings := r.2.timings + 1 }
      ((later.1.1, pathSection total number path r.1 (seconds r.2.timings) ++ later.1.2),
        later.2) :=
  rfl

theorem exists_replayPaths (hwritable : sink.Writable) (hapart : ∀ path ∈ paths, sink.IsApart path)
    (stamps : Nat → String) (seconds : Nat → Float) (settings : Settings) (total : Nat)
    (use : ClockUse) :
    ∃ final use', (replayPaths (Clock.reading stamps seconds) settings total (use.timings + 1) sink
          paths).run use =
        ((final, sectionsAlone stamps seconds settings sink total paths use.timings), use') ∧
      EventSink.GrowsBy (addedOctets stamps settings sink.tree use.readings paths)
        (addedLines settings sink.tree paths) sink final := by
  induction paths generalizing sink use with
  | nil => exact ⟨sink, use, rfl, .refl sink⟩
  | cons path rest ih =>
      obtain ⟨hpath, hrest⟩ := List.forall_mem_cons.mp hapart
      obtain ⟨middle, hreplay, hfirst⟩ :=
        PathReplay.exists_ofPath hwritable stamps use settings path
      obtain ⟨_, halone, -⟩ := exists_replayAlone hwritable stamps settings path
      have htimings : middle.2.timings = use.timings := by
        rw [hfirst.use_eq]
        rfl
      obtain ⟨final, use', hlater, hgrows⟩ := ih (hfirst.grows.writable hwritable)
        (fun path hpath => hfirst.grows.isApart path (hrest path hpath))
        { middle.2 with timings := middle.2.timings + 1 }
      have hread (other : String) (hother : other ∈ rest) :=
        hfirst.grows.read_eq other (hrest other hother)
      rw [sectionsAlone_of_growsBy hwritable hfirst.grows hrest] at hlater
      rw [addedOctets_congr hread, addedLines_congr hread] at hgrows
      refine ⟨final, use', ?_, ?_⟩
      · have hsections : sectionsAlone stamps seconds settings sink total (path :: rest)
              use.timings =
            pathSection total (use.timings + 1) path (replayAlone stamps settings sink path)
                (seconds use.timings) ++
              sectionsAlone stamps seconds settings sink total rest (use.timings + 1) := rfl
        rw [run_replayPaths_cons, hreplay]
        simp only [htimings] at hlater ⊢
        rw [hlater, hsections, halone]
        rfl
      · refine hfirst.grows.trans (hgrows.of_octets_eq fun hsome => ?_)
        have hlog : sink.log.isSome = true := by
          rwa [hfirst.grows.log_eq, Option.isSome_map] at hsome
        rw [hfirst.use_eq, EventSink.readings, if_pos hlog]
        rfl

end

/-- A sink whose log has grown by some lines. -/
def sinkAfter (sink : EventSink) (tree : FileTree) (lines : Nat) : EventSink :=
  ⟨tree, sink.log.map fun log => { log with written := log.written + lines }⟩

/-- What a run of the command comes to, in terms of the replays of its recordings alone: the log
grows by what each of them adds, in the order of their paths, and each is reported as if it were the
only one.  What it adds depends on the time through the stamps of the lines only. -/
structure ReplaysEachAlone (stamps : Nat → String) (seconds : Nat → Float) (settings : Settings)
    (t : FileTree) (paths : List String) (sink : EventSink)
    (opening openRecords : List Log.Record) (outcome : Outcome) : Prop where
  exitCode_eq : outcome.exitCode = 0
  untouched : paths = [] → outcome.tree = t
  sorted : paths.length ≤ 1 ∨ FileTree.SortedBelow settings.replay.inputDirectory paths
  log_grows : paths ≠ [] →
    EventSink.GrowsBy (addedOctets stamps settings sink.tree 0 paths)
      (addedLines settings sink.tree paths) sink
      (sinkAfter sink outcome.tree (addedLines settings sink.tree paths))
  records_eq : paths ≠ [] → outcome.records =
    (opening ++ [info s!"Found {paths.length} recording(s) to replay"] ++ openRecords ++
      sectionsAlone stamps seconds settings sink paths.length paths 0 ++
      closingRecords (sinkAfter sink outcome.tree (addedLines settings sink.tree paths))).filter
        (Log.Filter.ofString settings.logging.level).passes
  log_grows_alone : ∀ path stamps,
    EventSink.GrowsBy
      (loggedOctets stamps 0 path (PathAccount.ofPath settings sink.tree path).onsets)
      (PathAccount.ofPath settings sink.tree path).onsets.length sink
      (replayAlone stamps settings sink path).sink
  summary_alone : ∀ path stamps,
    (replayAlone stamps settings sink path).summary =
      (PathAccount.ofPath settings sink.tree path).summary
  unreadable : ∀ path failure, (Recording.load sink.tree path).1 = .error failure →
    (PathAccount.ofPath settings sink.tree path).onsets = [] ∧
      ∀ stamps, replayAlone stamps settings sink path =
        ⟨sink, (Recording.load sink.tree path).2, .error failure⟩

theorem unreadable_alone {failure : Failure}
    (hfailure : (Recording.load sink.tree path).1 = .error failure) :
    (PathAccount.ofPath settings sink.tree path).onsets = [] ∧
      ∀ stamps, replayAlone stamps settings sink path =
        ⟨sink, (Recording.load sink.tree path).2, .error failure⟩ := by
  rcases hload : Recording.load sink.tree path with ⟨loaded, loadRecords⟩
  obtain rfl : loaded = .error failure := (congrArg Prod.fst hload).symm.trans hfailure
  constructor
  · rw [PathAccount.ofPath, hload]
  · intro stamps
    rw [replayAlone, PathReplay.ofPath, hload]
    rfl

section

variable {clock : Clock (StateM ClockUse)} {paths : List String} {openRecords : List Log.Record}

theorem replayAll_of_none
    (hnone : t.recordings settings.replay.inputDirectory settings.replay.extension = [])
    (opening : List Log.Record) (use : ClockUse) :
    ((replayAll clock settings t opening).run use).1.exitCode = 0 ∧
      ((replayAll clock settings t opening).run use).1.tree = t := by
  rw [replayAll, hnone]
  exact ⟨rfl, rfl⟩

theorem replayAll_of_found {final : EventSink} {records : List Log.Record} {use use' : ClockUse}
    (hpaths : t.recordings settings.replay.inputDirectory settings.replay.extension = paths)
    (hfound : paths ≠ []) (hsink : openSink settings t = .ok (sink, openRecords))
    (hreplays : (replayPaths clock settings paths.length 1 sink paths).run use =
      ((final, records), use'))
    (opening : List Log.Record) :
    ((replayAll clock settings t opening).run use).1 =
      ⟨0, (opening ++ [info s!"Found {paths.length} recording(s) to replay"] ++ openRecords ++
          records ++ closingRecords final).filter
            (Log.Filter.ofString settings.logging.level).passes,
        Log.complaints settings.logging.level, final.tree⟩ := by
  match paths, hfound with
  | path :: rest, _ =>
      rw [replayAll, hpaths]
      simp only [hsink, StateT.run_bind, hreplays]
      rfl

end

/-- The recordings of a run have no say in what becomes of each other. -/
theorem run_replays_each_alone (stamps : Nat → String) (seconds : Nat → Float)
    {arguments : List String} {isLoaded : Bool} {openRecords : List Log.Record}
    (hsettings : findSettings t (settingsPath arguments) = .ok (isLoaded, settings))
    (hsink : openSink settings t = .ok (sink, openRecords)) (hwritable : sink.Writable)
    (hapart : ∀ path ∈ t.recordings settings.replay.inputDirectory settings.replay.extension,
      sink.IsApart path) :
    ReplaysEachAlone stamps seconds settings t
      (t.recordings settings.replay.inputDirectory settings.replay.extension) sink
      (openingRecords isLoaded (settingsPath arguments) settings) openRecords
      ((run (Clock.reading stamps seconds) t arguments).run ⟨0, 0⟩).1 := by
  have hsorted :=
    FileTree.recordings_sorted t settings.replay.inputDirectory settings.replay.extension
  have hrun : run (Clock.reading stamps seconds) t arguments =
      replayAll (Clock.reading stamps seconds) settings t
        (openingRecords isLoaded (settingsPath arguments) settings) := by
    rw [run, hsettings]
  rw [hrun]
  generalize openingRecords isLoaded (settingsPath arguments) settings = opening
  generalize hpaths : t.recordings settings.replay.inputDirectory settings.replay.extension = paths
    at hapart hsorted ⊢
  obtain ⟨final, use, hreplays, hgrows⟩ :=
    exists_replayPaths hwritable hapart stamps seconds settings paths.length ⟨0, 0⟩
  have hfinal : final = sinkAfter sink final.tree (addedLines settings sink.tree paths) := by
    rw [sinkAfter, ← hgrows.log_eq]
  have houtcome (hfound : paths ≠ []) := replayAll_of_found hpaths hfound hsink hreplays opening
  constructor
  case exitCode_eq =>
    by_cases hfound : paths = []
    · exact (replayAll_of_none (hpaths.trans hfound) opening ⟨0, 0⟩).1
    · rw [houtcome hfound]
  case untouched =>
    intro hnone
    exact (replayAll_of_none (hpaths.trans hnone) opening ⟨0, 0⟩).2
  case sorted => exact hsorted
  case log_grows =>
    intro hfound
    rw [houtcome hfound]
    exact hfinal ▸ hgrows
  case records_eq =>
    intro hfound
    rw [houtcome hfound, ← hfinal]
  case log_grows_alone =>
    intro path stamps
    obtain ⟨after, hreplay, halone⟩ := exists_replayAlone hwritable stamps settings path
    rw [hreplay]
    exact halone
  case summary_alone =>
    intro path stamps
    obtain ⟨after, hreplay, -⟩ := exists_replayAlone hwritable stamps settings path
    rw [hreplay]
  case unreadable => exact fun path failure hfailure => unreadable_alone hfailure

/-- Two recordings: one that is no text, and one of a person right in front of the camera. -/
def brokenNeighbour : FileTree :=
  let line := "\x7b\"width\":640,\"height\":480,\"detections\":[\x7b\"class_name\":\"Person\"," ++
    "\"track_id\":1,\"bbox\":[260,100,380,400]\x7d]\x7d"
  ⟨[(["recordings"], .directory), (["recordings", "a.jsonl"], .file [0xff]),
    (["recordings", "b.jsonl"], .file (Utf8.encode line.toList))], []⟩

theorem recordings_brokenNeighbour :
    brokenNeighbour.recordings "recordings" "jsonl" =
      ["recordings/a.jsonl", "recordings/b.jsonl"] := by
  have hroot : brokenNeighbour.find? "recordings" = some (["recordings"], .directory) := by
    decide +kernel
  have hnames : brokenNeighbour.namesIn ["recordings"] = ["a.jsonl", "b.jsonl"] := by
    decide +kernel
  have hfiles : ∀ name ∈ brokenNeighbour.namesIn ["recordings"],
      (brokenNeighbour.entry? (["recordings"] ++ [name])).any FileEntry.isFile = true := by
    rw [hnames]
    decide +kernel
  rw [FileTree.recordings, hroot]
  dsimp only
  rw [FileTree.filesBelow_of_files hfiles, hnames, List.mergeSort_of_pairwise]
  · decide +kernel
  · decide +kernel

/-- The log is a file, and none of the paths leads to it. -/
def isFileApartFrom (paths : List String) (sink : EventSink) : Bool :=
  sink.log.all fun log => (sink.tree.entry? log.location).any FileEntry.isFile &&
    paths.all fun path => decide (sink.tree.place? path ≠ some log.location)

theorem writable_of_isFileApartFrom {paths : List String}
    (hfile : isFileApartFrom paths sink = true) : sink.Writable := by
  intro log hlog octets
  rw [isFileApartFrom, hlog, Option.all_some, Bool.and_eq_true] at hfile
  obtain ⟨known, hknown⟩ := FileEntry.exists_file_of_any_isFile hfile.1
  exact ⟨_, FileTree.append_eq_ok_iff.mpr (.inl ⟨known, hknown, rfl⟩)⟩

theorem isApart_of_isFileApartFrom {paths : List String}
    (hfile : isFileApartFrom paths sink = true) : ∀ path ∈ paths, sink.IsApart path := by
  intro path hpath log hlog
  rw [isFileApartFrom, hlog, Option.all_some, Bool.and_eq_true] at hfile
  exact of_decide_eq_true (List.all_eq_true.mp hfile.2 path hpath)

/-- The recording that is no text costs its neighbour nothing. -/
theorem run_replays_each_alone_brokenNeighbour :
    ∃ sink openRecords,
      findSettings brokenNeighbour (settingsPath []) = .ok (false, .default) ∧
      openSink .default brokenNeighbour = .ok (sink, openRecords) ∧ sink.Writable ∧
      (∀ path ∈ ["recordings/a.jsonl", "recordings/b.jsonl"], sink.IsApart path) ∧
      addedLines .default sink.tree ["recordings/a.jsonl"] = 0 ∧
      addedLines .default sink.tree ["recordings/a.jsonl", "recordings/b.jsonl"] = 1 ∧
      ReplaysEachAlone Replay.quarterHours (fun _ => 1) .default brokenNeighbour
        ["recordings/a.jsonl", "recordings/b.jsonl"] sink
        (openingRecords false (settingsPath []) .default) openRecords
        ((run (Clock.reading Replay.quarterHours fun _ => 1) brokenNeighbour []).run
          ⟨0, 0⟩).1 := by
  have hsettings : findSettings brokenNeighbour (settingsPath []) = .ok (false, .default) := by
    have hmissing : brokenNeighbour.contains (settingsPath []) = false := by decide +kernel
    rw [findSettings, hmissing]
    rfl
  have hopened : (openSink .default brokenNeighbour).toOption.any (fun opened =>
      isFileApartFrom ["recordings/a.jsonl", "recordings/b.jsonl"] opened.1 &&
        decide (addedLines .default opened.1.tree ["recordings/a.jsonl"] = 0 ∧
          addedLines .default opened.1.tree ["recordings/a.jsonl", "recordings/b.jsonl"] = 1)) =
      true := by decide +kernel
  cases hsink : openSink .default brokenNeighbour with
  | error failure =>
      rw [hsink] at hopened
      contradiction
  | ok opened =>
      rw [hsink, Except.toOption, Option.any_some, Bool.and_eq_true, decide_eq_true_eq] at hopened
      obtain ⟨hfile, hnothing, honset⟩ := hopened
      have hwritable := writable_of_isFileApartFrom hfile
      have hapart := isApart_of_isFileApartFrom hfile
      have hpaths : brokenNeighbour.recordings Settings.default.replay.inputDirectory
          Settings.default.replay.extension = ["recordings/a.jsonl", "recordings/b.jsonl"] :=
        recordings_brokenNeighbour
      refine ⟨opened.1, opened.2, hsettings, rfl, hwritable, hapart, hnothing, honset, ?_⟩
      have halone := run_replays_each_alone Replay.quarterHours (fun _ => 1) hsettings hsink
        hwritable (hpaths.symm ▸ hapart)
      rw [hpaths] at halone
      exact halone

end Command

end ObstacleWatch
