import ObstacleWatch.Log

/-!
# Bounded queue

A queue between whoever raises events and whoever handles them.  Publishing always succeeds: when
the queue is full, its oldest entry is dropped and counted.
-/

namespace ObstacleWatch

/-- Pending entries, oldest first, with their bound and the number of dropped ones. -/
structure BoundedQueue (α : Type) where
  pending : List α
  capacity : Nat
  dropped : Nat

namespace BoundedQueue

variable {α : Type}

/-- The queue without entries; it has room for one at least. -/
def ofCapacity (capacity : Nat) : BoundedQueue α :=
  ⟨[], max capacity 1, 0⟩

def IsFull (q : BoundedQueue α) : Prop :=
  q.capacity ≤ q.pending.length

instance (q : BoundedQueue α) : Decidable q.IsFull :=
  inferInstanceAs (Decidable (_ ≤ _))

/-- Adds an entry, dropping the oldest one of a full queue. -/
def publish (q : BoundedQueue α) (entry : α) : BoundedQueue α :=
  if q.IsFull then ⟨q.pending.drop 1 ++ [entry], q.capacity, q.dropped + 1⟩
  else ⟨q.pending ++ [entry], q.capacity, q.dropped⟩

def publishAll (q : BoundedQueue α) (entries : List α) : BoundedQueue α :=
  entries.foldl publish q

def drain (q : BoundedQueue α) : BoundedQueue α × List α :=
  (⟨[], q.capacity, q.dropped⟩, q.pending)

/-- The record of an entry published into a full queue. -/
def publishRecord (q : BoundedQueue α) : List Log.Record :=
  if q.IsFull then
    [⟨.warn, .eventQueue, s!"Event bus full ({q.capacity} events), dropping oldest"⟩]
  else []

/-- The records of entries published one after the other. -/
def publishRecords (q : BoundedQueue α) : List α → List Log.Record
  | [] => []
  | entry :: rest => q.publishRecord ++ publishRecords (q.publish entry) rest

end BoundedQueue

end ObstacleWatch
