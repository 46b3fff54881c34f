import Mathlib.Algebra.Order.BigOperators.Group.List
import Mathlib.Algebra.Order.Ring.Nat
import ObstacleWatch.Command
import ObstacleWatch.Proofs.CounterTally
import ObstacleWatch.Proofs.DrainSchedule
import ObstacleWatch.Proofs.FileContents

/-!
# Onsets in the event log

A replay empties the event queue once after each frame.  A frame that raises more onsets than the
queue has room for loses the earlier ones before the log sees them, while the counters count them
all.  So the log gets, frame by frame, the last onsets of the frame, as many as the queue can hold;
the level change of a frame comes before its onsets and is the first to give way.  Each line that is
written is stamped with a time of its own, so a replay is run here with a clock that counts how
often it was asked.
-/

namespace ObstacleWatch

/-! ## Onsets among the latest events -/

theorem warnOnsets_rtake_events (g : AlarmGate) (a : FrameAssessment) (n : Nat) :
    warnOnsets ((g.events a).rtake n) = (g.onsets a).rtake n := by
  have hplace : ((g.events a).length - n) -
      ((g.levelChange? a).toList.map AlarmEvent.levelChanged).length =
        (g.onsets a).length - n := by
    rw [AlarmGate.events, List.length_append, List.length_map, List.length_map]
    omega
  rw [List.rtake, AlarmGate.events, List.drop_append, ← AlarmGate.events, hplace,
    warnOnsets_append, ← List.map_drop, ← List.map_drop, warnOnsets_map_levelChanged,
    warnOnsets_map_warnOnset, List.nil_append, List.rtake]

section

variable {α : Type} {n : Nat}

theorem length_flatten_map_rtake (parts : List (List α)) (n : Nat) :
    (parts.map (·.rtake n)).flatten.length = (parts.map fun part => min n part.length).sum := by
  rw [List.length_flatten, List.map_map]
  congr 1
  exact List.map_congr_left fun part _ => length_rtake part n

theorem flatten_map_rtake_of_length_le {parts : List (List α)}
    (hroom : ∀ part ∈ parts, part.length ≤ n) :
    (parts.map (·.rtake n)).flatten = parts.flatten := by
  congr 1
  exact (List.map_congr_left fun part hpart => rtake_of_length_le (hroom part hpart)).trans
    (List.map_id parts)

theorem length_flatten_map_rtake_le (parts : List (List α)) (n : Nat) :
    (parts.map (·.rtake n)).flatten.length ≤ parts.flatten.length := by
  rw [length_flatten_map_rtake, List.length_flatten]
  exact List.sum_le_sum fun part _ => Nat.min_le_right _ _

theorem length_flatten_map_rtake_eq_iff (parts : List (List α)) (n : Nat) :
    (parts.map (·.rtake n)).flatten.length = parts.flatten.length ↔
      ∀ part ∈ parts, part.length ≤ n := by
  constructor
  · intro hlength
    induction parts with
    | nil => simp
    | cons part rest ih =>
        have hrest := length_flatten_map_rtake_le rest n
        simp only [List.map_cons, List.flatten_cons, List.length_append, length_rtake] at hlength
        have hpart : part.length ≤ n := by omega
        exact List.forall_mem_cons.mpr ⟨hpart, ih (by omega)⟩
  · intro hroom
    rw [flatten_map_rtake_of_length_le hroom]

end

/-! ## The clock -/

/-- How often a clock was asked for the time, and how much work it has timed. -/
structure ClockUse where
  readings : Nat
  timings : Nat

/-- The use of a clock that was asked for the time some more times. -/
def ClockUse.read (use : ClockUse) (times : Nat) : ClockUse :=
  { use with readings := use.readings + times }

theorem ClockUse.read_read (use : ClockUse) (times times' : Nat) :
    (use.read times).read times' = use.read (times + times') := by
  rw [read, read, read, Nat.add_assoc]

namespace Command.Clock

/-- The next one of the given times. -/
def next (stamps : Nat → String) : StateM ClockUse String :=
  modifyGet fun use => (stamps use.readings, use.read 1)

/-- A clock that shows the given times one after the other, and the seconds that each work takes. -/
def reading (stamps : Nat → String) (seconds : Nat → Float) : Clock (StateM ClockUse) where
  timestamp := next stamps
  timed work := do
    let result ← work
    let use ← get
    set { use with timings := use.timings + 1 }
    return (result, seconds use.timings)

end Command.Clock

open Command (Clock PathReplay)

/-! ## Appending to the log -/

/-- The lines of onsets, stamped with the times from a number on. -/
def loggedOctets (stamps : Nat → String) (first : Nat) (source : String)
    (onsets : List WarnOnset) : List UInt8 :=
  (onsets.zipIdx first).flatMap fun (w, number) =>
    Utf8.encode (w.logLine (stamps number) source ++ ['\n'])

section

variable {stamps : Nat → String} {source : String}

@[simp] theorem loggedOctets_nil (first : Nat) : loggedOctets stamps first source [] = [] := rfl

theorem loggedOctets_singleton (first : Nat) (w : WarnOnset) :
    loggedOctets stamps first source [w] =
      Utf8.encode (w.logLine (stamps first) source ++ ['\n']) :=
  List.append_nil _

theorem loggedOctets_append (first : Nat) (onsets later : List WarnOnset) :
    loggedOctets stamps first source (onsets ++ later) =
      loggedOctets stamps first source onsets ++
        loggedOctets stamps (first + onsets.length) source later := by
  rw [loggedOctets, List.zipIdx_append, List.flatMap_append, loggedOctets, loggedOctets]

end

namespace EventSink

/-- A sink with a log turns into another one by appending onsets to the log, and the time is asked
for once for each of them. -/
structure Appended (stamps : Nat → String) (source : String) (onsets : List WarnOnset)
    (log : EventLog) (before after : EventSink × ClockUse) : Prop where
  log_eq : after.1.log = some { log with written := log.written + onsets.length }
  octets_eq : ∀ octets, before.1.tree.entry? log.location = some (.file octets) →
    after.1.tree.entry? log.location =
      some (.file (octets ++ loggedOctets stamps before.2.readings source onsets))
  use_eq : after.2 = before.2.read onsets.length

variable {stamps : Nat → String} {source : String} {log : EventLog} {sink : EventSink}
  {use : ClockUse} {before middle after : EventSink × ClockUse} {onsets later : List WarnOnset}

theorem appended_nil (hlog : before.1.log = some log) :
    Appended stamps source [] log before before :=
  ⟨hlog, fun octets hoctets => by simpa using hoctets, rfl⟩

theorem Appended.append
    (hfirst : Appended stamps source onsets log before middle)
    (hlater : ∀ log, middle.1.log = some log → Appended stamps source later log middle after) :
    Appended stamps source (onsets ++ later) log before after := by
  obtain ⟨hlog, hoctets, huse⟩ := hlater _ hfirst.log_eq
  refine ⟨?_, ?_, ?_⟩
  · rw [hlog, List.length_append, Nat.add_assoc]
  · intro octets hbefore
    have hafter := hoctets _ (hfirst.octets_eq octets hbefore)
    rw [hafter, loggedOctets_append, List.append_assoc, hfirst.use_eq, ClockUse.read]
  · rw [huse, hfirst.use_eq, ClockUse.read_read, List.length_append]

theorem run_take_warnOnset (hlog : sink.log = some log) (w : WarnOnset) :
    (sink.take (Clock.next stamps) source (.warnOnset w)).run use =
      ((log.append sink.tree (stamps use.readings) source w).map fun (tree, log) =>
        ⟨tree, some log⟩, use.read 1) := by
  simp only [take, hlog]
  rfl

theorem appended_of_take {w : WarnOnset} {next : EventSink} {use' : ClockUse}
    (hlog : sink.log = some log)
    (htake : (sink.take (Clock.next stamps) source (.warnOnset w)).run use = (.ok next, use')) :
    Appended stamps source [w] log (sink, use) (next, use') := by
  rw [run_take_warnOnset hlog] at htake
  obtain ⟨hwritten, rfl⟩ := Prod.mk.inj htake
  simp only [EventLog.append] at hwritten
  cases hwrite : sink.tree.append log.location
      (Utf8.encode (w.logLine (stamps use.readings) source ++ ['\n'])) with
  | error e => simp [hwrite, Except.mapError, Except.map, bind, Except.bind] at hwritten
  | ok tree =>
      simp only [hwrite, Except.mapError, Except.map, bind, Except.bind, pure, Except.pure,
        Except.ok.injEq] at hwritten
      subst hwritten
      refine ⟨rfl, ?_, rfl⟩
      intro octets hbefore
      simp only [FileTree.append, hbefore, Except.ok.injEq] at hwrite
      rw [← hwrite, FileTree.entry?_put_file hbefore, if_pos rfl, loggedOctets_singleton]

theorem run_takeAll_cons (event : AlarmEvent) (events : List AlarmEvent) :
    (sink.takeAll (Clock.next stamps) source (event :: events)).run use =
      match (sink.take (Clock.next stamps) source event).run use with
      | (.error failure, use) => (⟨sink, event.commandRecords, some failure⟩, use)
      | (.ok next, use) =>
          let later := (next.takeAll (Clock.next stamps) source events).run use
          ({ later.1 with records := event.commandRecords ++ later.1.records }, later.2) := by
  rw [takeAll, StateT.run_bind]
  rcases (sink.take (Clock.next stamps) source event).run use with ⟨_ | _, use⟩ <;> rfl

theorem appended_of_takeAll {events : List AlarmEvent} {taken : Progress EventSink × ClockUse}
    (hlog : sink.log = some log)
    (htaken : (sink.takeAll (Clock.next stamps) source events).run use = taken)
    (hdone : taken.1.failure = none) :
    Appended stamps source (warnOnsets events) log (sink, use) (taken.1.state, taken.2) := by
  induction events generalizing sink log use taken with
  | nil =>
      subst htaken
      exact appended_nil hlog
  | cons event events ih =>
      rw [run_takeAll_cons] at htaken
      rcases htake : (sink.take (Clock.next stamps) source event).run use with
        ⟨failure | next, use'⟩
      · rw [htake] at htaken
        subst htaken
        contradiction
      · rcases hrest : (next.takeAll (Clock.next stamps) source events).run use' with ⟨later, use''⟩
        simp only [htake, hrest] at htaken
        subst htaken
        cases event with
        | levelChanged change =>
            cases htake
            exact (ih hlog hrest hdone :)
        | warnOnset w =>
            have hfirst := appended_of_take hlog htake
            exact hfirst.append fun _ hnext => (ih hnext hrest hdone :)

end EventSink

namespace Replay

open EventSink

variable {stamps : Nat → String} {source : String} {log : EventLog} {use : ClockUse} {r : Replay}
  {p : Pipeline}

def onsetsByFrame (p : Pipeline) (frames : List Frame) : List (List WarnOnset) :=
  (p.run frames).map fun taken => warnOnsets taken.outcome.events

theorem onsetsByFrame_cons (p : Pipeline) (frame : Frame) (frames : List Frame) :
    onsetsByFrame p (frame :: frames) =
      warnOnsets (p.step frame).outcome.events ::
        onsetsByFrame (p.step frame).pipeline frames := rfl

/-- The replay has an empty queue, and apart from the queue its pipeline is the given one. -/
structure Follows (r : Replay) (p : Pipeline) : Prop where
  alike : r.pipeline.AlikeButQueue p
  holds : r.pipeline.queue.HoldsLatest []

theorem run_step (r : Replay) (frame : Frame) :
    (r.step (Clock.next stamps) source frame).run use =
      let taken := (r.sink.takeAll (Clock.next stamps) source
        (r.pipeline.process frame).1.drainEvents.2).run use
      (⟨⟨(r.pipeline.process frame).1.drainEvents.1, taken.1.state⟩,
        (r.pipeline.process frame).2.records ++ taken.1.records, taken.1.failure⟩, taken.2) :=
  rfl

theorem run_run_cons (r : Replay) (frame : Frame) (frames : List Frame) :
    (run (Clock.next stamps) source r (frame :: frames)).run use =
      let first := (r.step (Clock.next stamps) source frame).run use
      match first.1.failure with
      | some _ => first
      | none =>
          let later := (run (Clock.next stamps) source first.1.state frames).run first.2
          ({ later.1 with records := first.1.records ++ later.1.records }, later.2) := by
  rw [run, StateT.run_bind]
  rcases (r.step (Clock.next stamps) source frame).run use with ⟨⟨_, _, _ | _⟩, _⟩ <;> rfl

theorem Follows.step (hr : r.Follows p) {frame : Frame} {first : Progress Replay × ClockUse}
    (hfirst : (r.step (Clock.next stamps) source frame).run use = first) :
    first.1.state.Follows (p.step frame).pipeline ∧
      first.1.state.pipeline.queue.capacity = r.pipeline.queue.capacity := by
  subst hfirst
  exact ⟨⟨(hr.alike.process frame).1.drain, (hr.holds.publishAll _).drain⟩,
    BoundedQueue.capacity_publishAll _ _⟩

theorem Follows.appended_of_step (hr : r.Follows p) (hlog : r.sink.log = some log) {frame : Frame}
    {first : Progress Replay × ClockUse}
    (hfirst : (r.step (Clock.next stamps) source frame).run use = first)
    (hdone : first.1.failure = none) :
    Appended stamps source
      ((warnOnsets (p.step frame).outcome.events).rtake r.pipeline.queue.capacity) log
      (r.sink, use) (first.1.state.sink, first.2) := by
  have hevents : (r.pipeline.process frame).2.events = (p.step frame).outcome.events :=
    congrArg (·.2.2) (hr.alike.process frame).2
  have hbatch : (r.pipeline.process frame).1.drainEvents.2 =
      (p.step frame).outcome.events.rtake r.pipeline.queue.capacity := by
    have hheld := (hr.holds.publishAll (r.pipeline.process frame).2.events).pending_eq
    rw [List.nil_append, BoundedQueue.capacity_publishAll, hevents] at hheld
    exact hevents ▸ hheld
  have hgate : (p.step frame).outcome.events =
      p.alarms.events (p.step frame).outcome.assessment := rfl
  have honsets : warnOnsets (r.pipeline.process frame).1.drainEvents.2 =
      (warnOnsets (p.step frame).outcome.events).rtake r.pipeline.queue.capacity := by
    rw [hbatch, hgate, warnOnsets_rtake_events, AlarmGate.warnOnsets_events]
  rw [run_step] at hfirst
  subst hfirst
  rw [← honsets]
  exact (appended_of_takeAll hlog rfl hdone :)

theorem Follows.appended_of_run {frames : List Frame} {done : Progress Replay × ClockUse}
    (hr : r.Follows p) (hlog : r.sink.log = some log)
    (hrun : (run (Clock.next stamps) source r frames).run use = done)
    (hdone : done.1.failure = none) :
    done.1.state.pipeline.AlikeButQueue (p.after frames) ∧
      Appended stamps source
        ((onsetsByFrame p frames).map (·.rtake r.pipeline.queue.capacity)).flatten log
        (r.sink, use) (done.1.state.sink, done.2) := by
  induction frames generalizing r p log use done with
  | nil =>
      subst hrun
      exact ⟨hr.alike, appended_nil hlog⟩
  | cons frame frames ih =>
      rw [run_run_cons] at hrun
      rcases hstep : (r.step (Clock.next stamps) source frame).run use with ⟨first, use'⟩
      rcases hrest : (run (Clock.next stamps) source first.state frames).run use' with
        ⟨later, use''⟩
      simp only [hstep, hrest] at hrun
      cases hfailure : first.failure with
      | some failure =>
          simp only [hfailure] at hrun
          subst hrun
          rw [hfailure] at hdone
          contradiction
      | none =>
          simp only [hfailure] at hrun
          subst hrun
          obtain ⟨hnext, hcapacity⟩ := hr.step hstep
          have hfirst := hr.appended_of_step hlog hstep hfailure
          obtain ⟨halike, -⟩ := ih hnext hfirst.log_eq hrest hdone
          refine ⟨halike, ?_⟩
          rw [onsetsByFrame_cons, List.map_cons, List.flatten_cons]
          refine hfirst.append fun log hlog => ?_
          rw [← hcapacity]
          exact (ih hnext hlog hrest hdone).2

end Replay

/-! ## Onsets in the counters -/

namespace Replay

theorem warnOnsets_after (p : Pipeline) (frames : List Frame) :
    (p.after frames).counters.warnOnsets =
      p.counters.warnOnsets + (onsetsByFrame p frames).flatten.length.toUInt64 := by
  induction frames generalizing p with
  | nil => exact (UInt64.add_zero _).symm
  | cons frame frames ih =>
      have hstep : (p.step frame).pipeline.counters.warnOnsets =
          p.counters.warnOnsets +
            (warnOnsets (p.step frame).outcome.events).length.toUInt64 := by
        rw [length_warnOnsets]
        exact p.value_step frame (by decide : Counters.Name.warnOnsets ≠ .activeTracks)
      have hafter : p.after (frame :: frames) = (p.step frame).pipeline.after frames := rfl
      rw [hafter, ih, hstep, onsetsByFrame_cons, List.flatten_cons, List.length_append,
        UInt64.add_assoc]
      exact congrArg (p.counters.warnOnsets + ·) (UInt64.ofNat_add _ _).symm

end Replay

/-! ## The replay of a recording -/

theorem maxPendingEvents_pos {settings : Settings} (hcheck : settings.check = .ok ()) :
    0 < settings.output.maxPendingEvents := by
  by_contra hnone
  rw [Settings.check] at hcheck
  cases hrisk : settings.risk.check with
  | error e => simp [hrisk, Except.mapError, bind, Except.bind] at hcheck
  | ok _ =>
      simp only [hrisk, Except.mapError, require, bind, Except.bind, if_neg hnone] at hcheck
      split at hcheck <;> contradiction

namespace Replay

open EventSink Command

def recordingOnsets (settings : Settings) (recording : Recording) : List (List WarnOnset) :=
  onsetsByFrame
    (.new settings.risk (fpsSource settings recording) settings.output.maxPendingEvents)
    recording.frames

section

variable {stamps : Nat → String} {path : String} {settings : Settings} {sink : EventSink}
  {log : EventLog} {use : ClockUse} {recording : Recording} {pipeline : Pipeline}
  {loadRecords : List Log.Record} {skipped : Nat} {counters : Counters}
  {replayed : PathReplay × ClockUse}

theorem run_ofPath (hload : Recording.load sink.tree path = (.ok recording, loadRecords))
    (hpipeline : Pipeline.ofSettings settings.risk (fpsSource settings recording)
      settings.output.maxPendingEvents = .ok pipeline) :
    (PathReplay.ofPath (Clock.next stamps) settings sink path).run use =
      let done := (run (Clock.next stamps) path ⟨pipeline, sink⟩ recording.frames).run use
      ({ sink := done.1.state.sink
         records := loadRecords ++ done.1.records
         summary :=
          match done.1.failure with
          | some failure => .error failure
          | none => .ok (recording.skippedLines, done.1.state.pipeline.counters) }, done.2) := by
  simp only [PathReplay.ofPath, hload, ofRecording, hpipeline]
  rfl

theorem run_ofPath_of_refused {e : RiskSettingsError}
    (hload : Recording.load sink.tree path = (.ok recording, loadRecords))
    (hpipeline : Pipeline.ofSettings settings.risk (fpsSource settings recording)
      settings.output.maxPendingEvents = .error e) :
    (PathReplay.ofPath (Clock.next stamps) settings sink path).run use =
      (⟨sink, loadRecords, .error (.of e.message)⟩, use) := by
  simp only [PathReplay.ofPath, hload, ofRecording, hpipeline]
  rfl

theorem exists_run_of_ofPath (hload : (Recording.load sink.tree path).1 = .ok recording)
    (hreplay : (PathReplay.ofPath (Clock.next stamps) settings sink path).run use = replayed)
    (hsummary : replayed.1.summary = .ok (skipped, counters)) :
    ∃ pipeline done, Pipeline.ofSettings settings.risk (fpsSource settings recording)
        settings.output.maxPendingEvents = .ok pipeline ∧
      (run (Clock.next stamps) path ⟨pipeline, sink⟩ recording.frames).run use = done ∧
      done.1.failure = none ∧
      (replayed.1.sink, replayed.2) = (done.1.state.sink, done.2) ∧
      counters = done.1.state.pipeline.counters := by
  rcases hloaded : Recording.load sink.tree path with ⟨loaded, loadRecords⟩
  obtain rfl : loaded = .ok recording := (congrArg Prod.fst hloaded).symm.trans hload
  cases hpipeline : Pipeline.ofSettings settings.risk (fpsSource settings recording)
      settings.output.maxPendingEvents with
  | error e =>
      rw [run_ofPath_of_refused hloaded hpipeline] at hreplay
      subst hreplay
      contradiction
  | ok pipeline =>
      rcases hrun : (run (Clock.next stamps) path ⟨pipeline, sink⟩ recording.frames).run use with
        ⟨done, use'⟩
      rw [run_ofPath hloaded hpipeline, hrun] at hreplay
      subst hreplay
      refine ⟨pipeline, (done, use'), rfl, hrun, ?_⟩
      cases hfailure : done.failure with
      | some failure => simp [hfailure] at hsummary
      | none =>
          simp only [hfailure, Except.ok.injEq, Prod.mk.injEq] at hsummary
          exact ⟨rfl, rfl, hsummary.2.symm⟩

/-- What a replay that succeeds has written to the log and counted. -/
structure LogsLatestOnsets (stamps : Nat → String) (path : String) (settings : Settings)
    (recording : Recording) (log : EventLog) (before after : EventSink × ClockUse)
    (counters : Counters) : Prop where
  appended : Appended stamps path
    ((recordingOnsets settings recording).map
      (·.rtake settings.output.maxPendingEvents)).flatten log before after
  appended_length : ((recordingOnsets settings recording).map
      (·.rtake settings.output.maxPendingEvents)).flatten.length =
    ((recordingOnsets settings recording).map fun onsets =>
      min settings.output.maxPendingEvents onsets.length).sum
  counted : counters.warnOnsets =
    (recordingOnsets settings recording).flatten.length.toUInt64
  complete : (∀ onsets ∈ recordingOnsets settings recording,
      onsets.length ≤ settings.output.maxPendingEvents) →
    Appended stamps path (recordingOnsets settings recording).flatten log before after
  complete_iff : ((recordingOnsets settings recording).map
      (·.rtake settings.output.maxPendingEvents)).flatten.length =
        (recordingOnsets settings recording).flatten.length ↔
    ∀ onsets ∈ recordingOnsets settings recording,
      onsets.length ≤ settings.output.maxPendingEvents

/-- Of the onsets of a frame the log gets the last ones, as many as the queue can hold; it gets all
onsets of a recording just if no frame has more. -/
theorem logs_latest_onsets
    (hcheck : settings.check = .ok ()) (hlog : sink.log = some log)
    (hload : (Recording.load sink.tree path).1 = .ok recording)
    (hreplay : (PathReplay.ofPath (Clock.next stamps) settings sink path).run use = replayed)
    (hsummary : replayed.1.summary = .ok (skipped, counters)) :
    LogsLatestOnsets stamps path settings recording log (sink, use)
      (replayed.1.sink, replayed.2) counters := by
  obtain ⟨pipeline, done, hpipeline, hrun, hdone, hafter, hcounters⟩ :=
    exists_run_of_ofPath hload hreplay hsummary
  obtain ⟨-, rfl⟩ := Pipeline.ofSettings_eq_ok_iff.mp hpipeline
  let p := Pipeline.new settings.risk (fpsSource settings recording)
    settings.output.maxPendingEvents
  have hfollows : Follows ⟨p, sink⟩ p := ⟨.refl p, .ofCapacity settings.output.maxPendingEvents⟩
  obtain ⟨halike, happended⟩ := hfollows.appended_of_run hlog hrun hdone
  have hcapacity : p.queue.capacity = settings.output.maxPendingEvents :=
    Nat.max_eq_left (maxPendingEvents_pos hcheck)
  have happended : Appended stamps path
      ((recordingOnsets settings recording).map
        (·.rtake settings.output.maxPendingEvents)).flatten log (sink, use)
      (replayed.1.sink, replayed.2) := by
    simp only [hcapacity] at happended
    rw [hafter]
    exact happended
  have hcounted : counters.warnOnsets =
      (recordingOnsets settings recording).flatten.length.toUInt64 := by
    rw [Pipeline.AlikeButQueue] at halike
    rw [hcounters, halike]
    exact (warnOnsets_after p recording.frames).trans (UInt64.zero_add _)
  refine ⟨happended, length_flatten_map_rtake _ _, hcounted, ?_,
    length_flatten_map_rtake_eq_iff _ _⟩
  intro hroom
  rwa [flatten_map_rtake_of_length_le hroom] at happended

end

/-- The log gets every onset of a replay that succeeds. -/
def LogIsComplete : Prop :=
  ∀ (stamps : Nat → String) (path : String) (settings : Settings) (sink : EventSink)
    (log : EventLog) (use : ClockUse) (recording : Recording) (replayed : PathReplay × ClockUse)
    (skipped : Nat) (counters : Counters),
    settings.check = .ok () → sink.log = some log →
      (Recording.load sink.tree path).1 = .ok recording →
        (PathReplay.ofPath (Clock.next stamps) settings sink path).run use = replayed →
          replayed.1.summary = .ok (skipped, counters) →
            Appended stamps path (recordingOnsets settings recording).flatten log (sink, use)
                (replayed.1.sink, replayed.2) ∧
              counters.warnOnsets =
                (recordingOnsets settings recording).flatten.length.toUInt64

def crampedSettings : Settings :=
  { Settings.default with output := ⟨some "/log", 1⟩ }

def emptyLog : EventLog := ⟨"/log", ["log"], 0⟩

/-- A recording in which two persons become a warning on one frame, beside an empty log. -/
def twoPersonsSink : EventSink :=
  let person (id left right : String) : String :=
    "\x7b\"class_name\":\"Person\",\"track_id\":" ++ id ++ ",\"bbox\":[" ++ left ++ ",100," ++
      right ++ ",400]\x7d"
  let line := "\x7b\"width\":640,\"height\":480,\"detections\":[" ++
    person "1" "260" "380" ++ "," ++ person "2" "270" "390" ++ "]\x7d"
  ⟨⟨[(["persons"], .file (Utf8.encode line.toList)), (["log"], .file [])], []⟩, some emptyLog⟩

theorem crampedSettings_check : crampedSettings.check = .ok () := by
  have hrisk : crampedSettings.risk.check = .ok () :=
    (RiskEngine.ofSettings_eq_ok_iff.mp RiskEngine.ofSettings_default).1
  have hfps : IsAmount crampedSettings.replay.fallbackFps := by decide +kernel
  simp only [Settings.check, hrisk, Except.mapError, require, if_pos hfps, bind, Except.bind]
  rfl

theorem eq_ok_of_toOption_eq_some {ε α : Type} {result : Except ε α} {a : α}
    (hsome : result.toOption = some a) : result = .ok a := by
  cases result with
  | error e => contradiction
  | ok b => exact congrArg Except.ok (Option.some.inj hsome)

def quarterHours (n : Nat) : String :=
  s!"15:{15 * n}"

/-- The replay of the recording, with a clock that was not asked before. -/
def twoPersonsReplay : PathReplay × ClockUse :=
  (PathReplay.ofPath (Clock.next quarterHours) crampedSettings twoPersonsSink "/persons").run ⟨0, 0⟩

/-- The replay succeeds; one onset of two is written. -/
theorem exists_replay_two_persons :
    ∃ recording replayed skipped counters,
      (Recording.load twoPersonsSink.tree "/persons").1 = .ok recording ∧
      (PathReplay.ofPath (Clock.next quarterHours) crampedSettings twoPersonsSink "/persons").run
        ⟨0, 0⟩ = replayed ∧
      replayed.1.summary = .ok (skipped, counters) ∧
      (recordingOnsets crampedSettings recording).map List.length = [2] ∧
      replayed.1.sink.log.map (·.written) = some 1 := by
  have honsets : (Recording.load twoPersonsSink.tree "/persons").1.toOption.map (fun recording =>
      (recordingOnsets crampedSettings recording).map List.length) = some [2] := by
    decide +kernel
  have hreplayed : Prod.mk twoPersonsReplay.1.summary.toOption.isSome
      (twoPersonsReplay.1.sink.log.map (·.written)) = (true, some 1) := by
    decide +kernel
  obtain ⟨replayed, hreplay⟩ : ∃ replayed, twoPersonsReplay = replayed := ⟨_, rfl⟩
  rw [hreplay] at hreplayed
  obtain ⟨hsummary, hwritten⟩ := Prod.mk.inj hreplayed
  obtain ⟨recording, hload, hlengths⟩ := Option.map_eq_some_iff.mp honsets
  obtain ⟨⟨skipped, counters⟩, hdone⟩ := Option.isSome_iff_exists.mp hsummary
  exact ⟨recording, replayed, skipped, counters, eq_ok_of_toOption_eq_some hload, hreplay,
    eq_ok_of_toOption_eq_some hdone, hlengths, hwritten⟩

theorem not_logIsComplete : ¬LogIsComplete := by
  intro hcomplete
  obtain ⟨recording, replayed, skipped, counters, hload, hreplay, hsummary, hlengths, hwritten⟩ :=
    exists_replay_two_persons
  obtain ⟨⟨hlog, -⟩, -⟩ := hcomplete quarterHours "/persons" crampedSettings twoPersonsSink emptyLog
    ⟨0, 0⟩ recording replayed skipped counters crampedSettings_check rfl hload hreplay hsummary
  rw [hlog, List.length_flatten, hlengths] at hwritten
  simp [emptyLog] at hwritten

/-- Of two onsets on one frame a queue for one event keeps the second. -/
theorem logs_latest_onsets_two_persons :
    ∃ recording replayed skipped counters,
      crampedSettings.check = .ok () ∧ twoPersonsSink.log = some emptyLog ∧
      (Recording.load twoPersonsSink.tree "/persons").1 = .ok recording ∧
      (PathReplay.ofPath (Clock.next quarterHours) crampedSettings twoPersonsSink "/persons").run
        ⟨0, 0⟩ = replayed ∧
      replayed.1.summary = .ok (skipped, counters) ∧
      LogsLatestOnsets quarterHours "/persons" crampedSettings recording emptyLog
        (twoPersonsSink, ⟨0, 0⟩) (replayed.1.sink, replayed.2) counters := by
  obtain ⟨recording, replayed, skipped, counters, hload, hreplay, hsummary, -, -⟩ :=
    exists_replay_two_persons
  exact ⟨recording, replayed, skipped, counters, crampedSettings_check, rfl, hload, hreplay,
    hsummary, logs_latest_onsets crampedSettings_check rfl hload hreplay hsummary⟩

end Replay

end ObstacleWatch
