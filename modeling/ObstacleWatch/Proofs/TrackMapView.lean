import Mathlib.Data.List.Nodup
import ObstacleWatch.Track

/-!
# Track maps through their view

All that can be seen of a map is `get?` and `size`.  Here every operation of a map is given by its
effect on `get?`.  Each key is held at most once, so filtering the entries filters the track that
is found.
-/

namespace ObstacleWatch

namespace Track

/-- The track a detection finds: the one it has, marked as seen on the frame, or a fresh one. -/
def found (frame : Nat) : Option Track → Track
  | some t => { t with lastSeen := frame }
  | none => .fresh frame

end Track

theorem lookup_filter_of_nodup
    {entries : List (TrackKey × Track)} (hnodup : (entries.map Prod.fst).Nodup)
    (keep : TrackKey × Track → Bool) (key : TrackKey) :
    (entries.filter keep).lookup key =
      (entries.lookup key).filter fun t => keep (key, t) := by
  induction entries with
  | nil => rfl
  | cons entry rest ih =>
      obtain ⟨k, t⟩ := entry
      simp only [List.map_cons, List.nodup_cons] at hnodup
      have hrest := ih hnodup.2
      by_cases hkey : key = k
      · subst hkey
        have hnone : rest.lookup key = none := by
          rw [List.lookup_eq_none_iff]
          intro entry hmem
          simp only [bne_iff_ne, ne_eq]
          intro heq
          exact hnodup.1 (List.mem_map.mpr ⟨entry, hmem, heq.symm⟩)
        cases hkeep : keep (key, t) <;>
          simp [hkeep, hrest, hnone, Option.filter_some]
      · have hbeq : (key == k) = false := by simpa using hkey
        cases hkeep : keep (k, t) <;>
          simp [List.lookup_cons, hkeep, hrest, hbeq]

namespace TrackMap

variable (m : TrackMap) (key : TrackKey)

@[simp] theorem get?_empty : empty.get? key = none := rfl

theorem get?_filter (keep : TrackKey × Track → Bool) :
    (m.filter keep).get? key = (m.get? key).filter fun t => keep (key, t) :=
  lookup_filter_of_nodup m.nodup keep key

theorem get?_erase_of_ne {other : TrackKey} (hne : key ≠ other) :
    (m.erase other).get? key = m.get? key := by
  rw [erase, get?_filter]
  cases m.get? key <;> simp [Option.filter_some, hne]

@[simp] theorem get?_insert_self (t : Track) : (m.insert key t).get? key = some t := by
  simp [insert, get?]

theorem get?_insert_of_ne {other : TrackKey} (hne : key ≠ other) (t : Track) :
    (m.insert other t).get? key = m.get? key := by
  have hbeq : (key == other) = false := by simpa using hne
  have herase : (m.erase other).entries.lookup key = m.get? key :=
    get?_erase_of_ne m key hne
  simp [insert, get?, List.lookup_cons, hbeq, herase]

theorem get?_reap (frame staleFrames : Nat) :
    (m.reap frame staleFrames).get? key =
      (m.get? key).filter fun t => !decide (t.IsStale frame staleFrames) :=
  m.get?_filter key _

theorem seen_eq_found (frame : Nat) : m.seen key frame = Track.found frame (m.get? key) := rfl

/-! ## Maps that look the same -/

variable {m m₁ m₂ : TrackMap}

theorem mem_entries_iff {e : TrackKey × Track} : e ∈ m.entries ↔ m.get? e.1 = some e.2 := by
  rw [get?, List.lookup_eq_some_iff]
  constructor
  · intro hmem
    obtain ⟨earlier, later, hsplit⟩ := List.append_of_mem hmem
    refine ⟨earlier, later, hsplit, ?_⟩
    intro other hother
    have hnodup := m.nodup
    rw [hsplit, List.map_append, List.map_cons, List.nodup_append] at hnodup
    have hne := hnodup.2.2 other.1 (List.mem_map_of_mem hother) e.1 List.mem_cons_self
    simpa using Ne.symm hne
  · rintro ⟨earlier, later, hsplit, -⟩
    rw [hsplit]
    exact List.mem_append_right _ List.mem_cons_self

theorem entries_perm_of_get?_eq (hsame : ∀ key, m₁.get? key = m₂.get? key) :
    m₁.entries.Perm m₂.entries := by
  have hnodup (m : TrackMap) : m.entries.Nodup := List.Nodup.of_map Prod.fst m.nodup
  refine (List.perm_ext_iff_of_nodup (hnodup m₁) (hnodup m₂)).mpr ?_
  intro e
  rw [mem_entries_iff, mem_entries_iff, hsame]

theorem size_eq_of_get?_eq (hsame : ∀ key, m₁.get? key = m₂.get? key) : m₁.size = m₂.size :=
  (entries_perm_of_get?_eq hsame).length_eq

theorem staleCount_eq_of_get?_eq (hsame : ∀ key, m₁.get? key = m₂.get? key)
    (frame staleFrames : Nat) :
    m₁.staleCount frame staleFrames = m₂.staleCount frame staleFrames := by
  have hleft (key : TrackKey) :
      (m₁.reap frame staleFrames).get? key = (m₂.reap frame staleFrames).get? key := by
    rw [get?_reap, get?_reap, hsame]
  rw [staleCount, staleCount, size_eq_of_get?_eq hsame, size_eq_of_get?_eq hleft]

end TrackMap

end ObstacleWatch
