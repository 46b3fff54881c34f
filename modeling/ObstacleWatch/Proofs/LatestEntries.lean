import Mathlib.Data.List.DropRight
import ObstacleWatch.EventQueue

/-!
# The latest entries of a queue

A bounded queue holds the last entries of those that were published since it was emptied, as many as
it has room for, and the number of dropped entries makes up for the others.  Both are kept by each
entry published, so they hold after any burst, however far beyond the capacity it goes.
-/

namespace ObstacleWatch

variable {α : Type}

theorem length_rtake (entries : List α) (n : Nat) :
    (entries.rtake n).length = min n entries.length := by
  rw [List.rtake, List.length_drop]
  omega

theorem rtake_concat_of_le
    {entries : List α} {n : Nat} (hpos : 0 < n) (hle : n ≤ entries.length) (entry : α) :
    (entries ++ [entry]).rtake n = (entries.rtake n).drop 1 ++ [entry] := by
  have hplace : (entries ++ [entry]).length - n = entries.length - n + 1 := by
    rw [List.length_append, List.length_singleton]
    omega
  rw [List.rtake, hplace, List.drop_append_of_le_length (by omega), List.rtake, List.drop_drop]

theorem rtake_of_length_le {entries : List α} {n : Nat} (hle : entries.length ≤ n) :
    entries.rtake n = entries := by
  rw [List.rtake, Nat.sub_eq_zero_of_le hle, List.drop_zero]

namespace BoundedQueue

variable {q : BoundedQueue α} {published : List α}

/-- The queue has room for an entry at least, and holds the last of the published entries. -/
structure HoldsLatest (q : BoundedQueue α) (published : List α) : Prop where
  capacity_pos : 0 < q.capacity
  pending_eq : q.pending = published.rtake q.capacity

@[simp] theorem capacity_publish (q : BoundedQueue α) (entry : α) :
    (q.publish entry).capacity = q.capacity := by
  unfold publish
  split <;> rfl

@[simp] theorem capacity_publishAll (q : BoundedQueue α) (entries : List α) :
    (q.publishAll entries).capacity = q.capacity := by
  induction entries generalizing q with
  | nil => rfl
  | cons entry rest ih => exact (ih (q.publish entry)).trans (q.capacity_publish entry)

namespace HoldsLatest

theorem ofCapacity (capacity : Nat) : (ofCapacity capacity : BoundedQueue α).HoldsLatest [] :=
  ⟨Nat.lt_of_lt_of_le Nat.one_pos (Nat.le_max_right capacity 1), (List.rtake_nil _).symm⟩

theorem length_pending (hq : q.HoldsLatest published) :
    q.pending.length = min q.capacity published.length := by
  rw [hq.pending_eq, length_rtake]

theorem publish (hq : q.HoldsLatest published) (entry : α) :
    (q.publish entry).HoldsLatest (published ++ [entry]) := by
  refine ⟨by simpa using hq.capacity_pos, ?_⟩
  rw [capacity_publish]
  have hlength := hq.length_pending
  by_cases hfull : q.IsFull
  · have hle : q.capacity ≤ published.length := by
      have hcapacity : q.capacity ≤ q.pending.length := hfull
      omega
    rw [rtake_concat_of_le hq.capacity_pos hle, ← hq.pending_eq, BoundedQueue.publish,
      if_pos hfull]
  · have hlt : published.length < q.capacity := by
      have hcapacity : ¬q.capacity ≤ q.pending.length := hfull
      omega
    have hroom : (published ++ [entry]).length ≤ q.capacity := by
      rw [List.length_append, List.length_singleton]
      exact hlt
    have hpending : q.pending = published := by
      rw [hq.pending_eq, rtake_of_length_le (Nat.le_of_lt hlt)]
    rw [rtake_of_length_le hroom, BoundedQueue.publish, if_neg hfull, hpending]

/-- Of an entry published and the entries before it none is lost from the account. -/
theorem publish_balance (hq : q.HoldsLatest published) (entry : α) :
    (q.publish entry).dropped + (q.publish entry).pending.length =
      q.dropped + q.pending.length + 1 := by
  unfold BoundedQueue.publish
  split
  · have hfull : q.capacity ≤ q.pending.length := ‹q.IsFull›
    have hpos := hq.capacity_pos
    simp only [List.length_append, List.length_drop, List.length_singleton]
    omega
  · simp only [List.length_append, List.length_singleton]
    omega

theorem publishAll (hq : q.HoldsLatest published) (entries : List α) :
    (q.publishAll entries).HoldsLatest (published ++ entries) := by
  induction entries generalizing q published with
  | nil => simpa [BoundedQueue.publishAll] using hq
  | cons entry rest ih => simpa [BoundedQueue.publishAll] using ih (hq.publish entry)

theorem publishAll_balance (hq : q.HoldsLatest published) (entries : List α) :
    (q.publishAll entries).dropped + (q.publishAll entries).pending.length =
      q.dropped + q.pending.length + entries.length := by
  induction entries generalizing q published with
  | nil => rfl
  | cons entry rest ih =>
      have hone := hq.publish_balance entry
      have hrest : ((q.publish entry).publishAll rest).dropped +
          ((q.publish entry).publishAll rest).pending.length =
            (q.publish entry).dropped + (q.publish entry).pending.length + rest.length :=
        ih (hq.publish entry)
      have hall : q.publishAll (entry :: rest) = (q.publish entry).publishAll rest := rfl
      rw [hall, hrest, List.length_cons]
      omega

theorem drain (hq : q.HoldsLatest published) : q.drain.1.HoldsLatest [] :=
  ⟨hq.capacity_pos, (List.rtake_nil _).symm⟩

end HoldsLatest

end BoundedQueue

end ObstacleWatch
