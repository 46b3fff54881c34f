import ObstacleWatch.Approach
import ObstacleWatch.Hysteresis
import ObstacleWatch.Log
import ObstacleWatch.Motion
import ObstacleWatch.Text.Quoted

/-!
# Tracks

A track is the memory of one object: its distance average, its approach streak, its hysteresis gate
and the frame it was last seen on.  Tracks are kept under a key of class name and identity, so
objects of different classes never share a track.  A detection the tracker did not recognise has an
identity of its own, made of the frame and its position there.

`TrackMap` holds the tracks; all that can be seen of it is which track a key has and how many tracks
there are.
-/

namespace ObstacleWatch

inductive TrackIdentity where
  | tracked (id : Int)
  | ephemeral (frame position : Nat)
  deriving Repr, DecidableEq

structure TrackKey where
  className : String
  identity : TrackIdentity
  deriving Repr, DecidableEq

namespace TrackKey

/-- The key of a detection at a position of a frame. -/
def ofDetection (frame position : Nat) (d : Detection) : TrackKey :=
  ⟨d.className, if d.IsTracked then .tracked d.trackId else .ephemeral frame position⟩

def isEphemeral (key : TrackKey) : Bool :=
  match key.identity with
  | .tracked _ => false
  | .ephemeral _ _ => true

def description (key : TrackKey) : String :=
  let identity :=
    match key.identity with
    | .tracked id => s!"Tracked({id})"
    | .ephemeral frame position =>
        "Ephemeral \x7b frame_index: " ++ toString frame ++ ", position: " ++ toString position ++
          " \x7d"
  "TrackKey \x7b class_name: " ++ quoted key.className ++ ", identity: " ++ identity ++ " \x7d"

end TrackKey

structure Track where
  motion : DistanceAverage
  streak : Nat
  gate : HysteresisGate
  lastSeen : Nat

namespace Track

def fresh (frame : Nat) : Track :=
  ⟨.empty, 0, .initial, frame⟩

/-- The track has not been seen for more than the allowed number of frames.  A frame before the
last sight counts as no distance. -/
def IsStale (frame staleFrames : Nat) (t : Track) : Prop :=
  staleFrames < frame - t.lastSeen

instance (frame staleFrames : Nat) (t : Track) : Decidable (t.IsStale frame staleFrames) :=
  inferInstanceAs (Decidable (staleFrames < frame - t.lastSeen))

end Track

/-- Tracks under their keys, every key at most once. -/
@[ext]
structure TrackMap where
  entries : List (TrackKey × Track)
  nodup : (entries.map Prod.fst).Nodup

namespace TrackMap

def empty : TrackMap := ⟨[], List.nodup_nil⟩

/-- The entries of a map that pass a test. -/
def filter (m : TrackMap) (keep : TrackKey × Track → Bool) : TrackMap :=
  ⟨m.entries.filter keep, m.nodup.sublist (List.filter_sublist.map Prod.fst)⟩

def get? (m : TrackMap) (key : TrackKey) : Option Track :=
  m.entries.lookup key

def size (m : TrackMap) : Nat :=
  m.entries.length

def erase (m : TrackMap) (key : TrackKey) : TrackMap :=
  m.filter fun e => decide (e.1 ≠ key)

theorem notMem_erase (m : TrackMap) (key : TrackKey) :
    key ∉ (m.erase key).entries.map Prod.fst := by
  simp [erase, filter]

/-- The map with a track under a key, in place of the one it had. -/
def insert (m : TrackMap) (key : TrackKey) (t : Track) : TrackMap :=
  ⟨(key, t) :: (m.erase key).entries,
    List.nodup_cons.mpr ⟨m.notMem_erase key, (m.erase key).nodup⟩⟩

/-- The track of a key, or a fresh one, marked as seen on a frame. -/
def seen (m : TrackMap) (key : TrackKey) (frame : Nat) : Track :=
  match m.get? key with
  | some t => { t with lastSeen := frame }
  | none => .fresh frame

def reap (m : TrackMap) (frame staleFrames : Nat) : TrackMap :=
  m.filter fun e => !decide (e.2.IsStale frame staleFrames)

def staleCount (m : TrackMap) (frame staleFrames : Nat) : Nat :=
  m.size - (m.reap frame staleFrames).size

end TrackMap

end ObstacleWatch
