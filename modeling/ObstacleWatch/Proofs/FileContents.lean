import Mathlib.Data.List.Basic
import ObstacleWatch.Files.Directory
import ObstacleWatch.Recording.Discovery

/-!
# Paths and the contents of files

The way that a path takes depends on the directories and links along it, and never on what a file
holds.  So when the contents of one file change, every path leads where it led before, and a path
that leads to another place reads what it read before.  The search for recordings is treated here
too: it tells their paths in the order of the names along them.
-/

namespace ObstacleWatch

/-- What a path leads to when the file at a place holds other octets. -/
def PathTarget.refill (location : Location) (octets : List UInt8) : PathTarget → PathTarget
  | .found place (.file held) => .found place (.file (if place = location then octets else held))
  | target => target

def FileEntry.isFile : FileEntry → Bool
  | .file _ => true
  | _ => false

theorem FileEntry.exists_file_of_any_isFile {entry : Option FileEntry}
    (hfile : entry.any isFile = true) : ∃ octets, entry = some (.file octets) := by
  rcases entry with _ | octets | _ | target | device
  case some.file => exact ⟨octets, rfl⟩
  all_goals contradiction

namespace FileTree

variable {t : FileTree} {location : Location} {held octets : List UInt8}

theorem entry?_put (htop : location ≠ []) (entry : FileEntry) (place : Location) :
    entry? (t.put location entry) place =
      if place = location then some entry else t.entry? place := by
  by_cases hplace : place = location
  · simp [put, entry?, hplace, htop]
  · have hother (entries : List (Location × FileEntry)) :
        (entries.filter fun e => decide (e.1 ≠ location)).lookup place = entries.lookup place := by
      induction entries with
      | nil => rfl
      | cons e rest ih =>
          by_cases he : e.1 = location
          · have hne : (place == e.1) = false := by simpa [he] using hplace
            rw [List.filter_cons_of_neg (by simpa using he), List.lookup_cons, hne, ih]
          · rw [List.filter_cons_of_pos (by simpa using he), List.lookup_cons, List.lookup_cons, ih]
    have hne : (place == location) = false := by simpa using hplace
    simp only [put, entry?, if_neg hplace, List.lookup_cons, hne, hother]

theorem ne_nil_of_entry?_file (hfile : t.entry? location = some (.file held)) :
    location ≠ [] := by
  rintro rfl
  have htop : t.entry? [] = some .directory := if_pos rfl
  rw [htop] at hfile
  cases hfile

/-- Only one file has other contents. -/
theorem entry?_put_file (hfile : t.entry? location = some (.file held)) (place : Location) :
    entry? (t.put location (.file octets)) place =
      if place = location then some (.file octets) else t.entry? place :=
  entry?_put (ne_nil_of_entry?_file hfile) _ _

/-! ## The way of a path -/

theorem descend_put_file (hfile : t.entry? location = some (.file held))
    {onLink onLink' : List String → Location → Except FileError PathTarget}
    (hlink : ∀ steps here, onLink' steps here = (onLink steps here).map (.refill location octets))
    (followLast : Bool) (steps : List String) (here : Location) :
    (t.put location (.file octets)).descend onLink' followLast steps here =
      (t.descend onLink followLast steps here).map (.refill location octets) := by
  induction steps generalizing here with
  | nil => rfl
  | cons name rest ih =>
      by_cases hstay : name = "."
      · subst hstay
        exact ih here
      by_cases hup : name = ".."
      · subst hup
        exact ih here.dropLast
      rw [descend.eq_4 _ _ _ _ _ _ hstay hup, descend.eq_4 _ _ _ _ _ _ hstay hup]
      by_cases hlong : longestName < name.utf8ByteSize
      · rw [if_pos hlong, if_pos hlong]
        rfl
      rw [if_neg hlong, if_neg hlong]
      simp only [entry?_put_file hfile]
      by_cases hplace : here ++ [name] = location
      · rw [if_pos hplace, hplace, hfile]
        by_cases hlast : rest = []
        · simp [hlast, Except.map, PathTarget.refill]
        · simp [hlast, Except.map]
      rw [if_neg hplace]
      cases hentry : t.entry? (here ++ [name]) with
      | none => by_cases hlast : rest = [] <;> simp [hlast, Except.map, PathTarget.refill]
      | some entry =>
          cases entry with
          | directory => exact ih (here ++ [name])
          | file other =>
              by_cases hlast : rest = [] <;>
                simp [hlast, hplace, Except.map, PathTarget.refill]
          | device device =>
              by_cases hlast : rest = [] <;> simp [hlast, Except.map, PathTarget.refill]
          | link target =>
              by_cases hitself : rest = [] ∧ followLast = false
              · simp [hitself, Except.map, PathTarget.refill]
              · by_cases hempty : target.isEmpty
                · simp [hitself, hempty, Except.map]
                · simp only [hitself, hempty, if_false, hlink]
                  rfl

theorem travel_put_file (hfile : t.entry? location = some (.file held)) (followLast : Bool)
    (links : Nat) (steps : List String) (here : Location) :
    (t.put location (.file octets)).travel followLast links steps here =
      (t.travel followLast links steps here).map (.refill location octets) := by
  induction links generalizing steps here with
  | zero =>
      have hlink (_ : List String) (_ : Location) :
          (.error .tooManyLinks : Except FileError PathTarget) =
            Except.map (.refill location octets) (.error .tooManyLinks) := rfl
      exact descend_put_file hfile hlink followLast steps here
  | succ links ih => exact descend_put_file hfile ih followLast steps here

theorem resolve_put_file (hfile : t.entry? location = some (.file held)) (path : String)
    (followLast : Bool) :
    (t.put location (.file octets)).resolve path followLast =
      (t.resolve path followLast).map (.refill location octets) := by
  have hhere : (t.put location (.file octets)).here = t.here := rfl
  unfold resolve
  rw [hhere, travel_put_file hfile]
  split
  · rfl
  split
  · rfl
  split <;> rfl

theorem place?_put_file (hfile : t.entry? location = some (.file held)) (path : String) :
    (t.put location (.file octets)).place? path = t.place? path := by
  rw [place?, place?, find?, find?, resolve_put_file hfile]
  rcases t.resolve path true with e | ⟨place, held | _ | target | device⟩ | vacant <;> rfl

theorem isDirectory_put_file (hfile : t.entry? location = some (.file held)) (path : String) :
    (t.put location (.file octets)).isDirectory path = t.isDirectory path := by
  rw [isDirectory, isDirectory, find?, find?, resolve_put_file hfile]
  rcases t.resolve path true with e | ⟨place, held | _ | target | device⟩ | vacant <;> rfl

/-- A path that leads to another place reads what it read before. -/
theorem read_put_file (hfile : t.entry? location = some (.file held)) {path : String}
    (hapart : t.place? path ≠ some location) :
    (t.put location (.file octets)).read path = t.read path := by
  rw [read, read, resolve_put_file hfile]
  rw [place?, find?] at hapart
  generalize t.resolve path true = resolved at hapart ⊢
  rcases resolved with e | ⟨place, other | _ | target | device⟩ | vacant
  case ok.found.file =>
    have hplace : place ≠ location := by simpa using hapart
    simp [Except.map, PathTarget.refill, hplace]
  all_goals rfl

/-! ## Appending to a file -/

theorem append_eq_ok_iff {t' : FileTree} :
    t.append location octets = .ok t' ↔
      (∃ held, t.entry? location = some (.file held) ∧
        t' = t.put location (.file (held ++ octets))) ∨
      t.entry? location = some (.device .sink) ∧ t' = t := by
  rw [append]
  cases hentry : t.entry? location with
  | none => simp
  | some entry =>
      rcases entry with held | _ | target | _ | _ <;> simp [eq_comm]

/-! ## Finding recordings -/

/-- Below a directory that holds files only, the search ends at once. -/
theorem filesBelow_of_files {here : Location}
    (hfiles : ∀ name ∈ t.namesIn here, (t.entry? (here ++ [name])).any FileEntry.isFile = true)
    (ancestors : List Location) (path : String) :
    t.filesBelow ancestors path here = (t.namesIn here).map fun name => [name] := by
  rw [filesBelow, List.map_eq_flatMap]
  refine List.flatMap_congr fun name hname => ?_
  obtain ⟨octets, hentry⟩ := FileEntry.exists_file_of_any_isFile (hfiles name hname)
  split <;> simp_all

/-- The paths lead from the root to places in the order of their names. -/
def SortedBelow (root : String) (paths : List String) : Prop :=
  ∃ found : List (List String),
    paths = found.map (fun names => Path.join root ("/".intercalate names)) ∧
      found.Pairwise fun a b => ¬b < a

theorem pairwise_mergeSort_names (found : List (List String)) :
    (found.mergeSort fun a b => !decide (b < a)).Pairwise fun a b => ¬b < a := by
  have htrans (a b c : List String) (hab : (!decide (b < a)) = true)
      (hbc : (!decide (c < b)) = true) : (!decide (c < a)) = true := by
    rw [Bool.not_eq_true', decide_eq_false_iff_not] at hab hbc ⊢
    exact List.le_trans hab hbc
  have htotal (a b : List String) : (!decide (b < a) || !decide (a < b)) = true := by
    rw [Bool.or_eq_true, Bool.not_eq_true', Bool.not_eq_true', decide_eq_false_iff_not,
      decide_eq_false_iff_not]
    exact List.le_total a b
  refine (List.pairwise_mergeSort htrans htotal found).imp fun hle => ?_
  simpa using hle

theorem recordings_sorted (t : FileTree) (root extension : String) :
    (t.recordings root extension).length ≤ 1 ∨
      SortedBelow root (t.recordings root extension) := by
  unfold recordings
  rcases t.find? root with _ | ⟨location, octets | _ | target | device⟩
  case some.file =>
    exact .inl (List.length_filter_le _ _)
  case some.directory => exact .inr ⟨_, rfl, pairwise_mergeSort_names _⟩
  all_goals exact .inl (Nat.zero_le 1)

end FileTree

end ObstacleWatch
