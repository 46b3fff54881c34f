import ObstacleWatch.Files.Tree

/-!
# Finding recordings

Recordings are the files of one extension below a directory.  Links are followed, except for a link
to a directory that the search is already inside of; such a link, and one that leads nowhere, is
passed over, and so is a directory whose path is too long to follow.  Every step down enters a
directory that the search was not inside of or goes one name deeper, so the search ends.

What is found is said for trees of files, where every name is a text and every directory can be
listed.  A disk can hold more: a directory that cannot be listed is passed over there, a file whose
extension is not valid UTF-8 is no recording, and a name that is not valid UTF-8 elsewhere does not
keep a file from being found.
-/

namespace ObstacleWatch.FileTree

def directories (t : FileTree) : List Location :=
  [] :: (t.entries.filter fun e => decide (e.2 = .directory)).map Prod.fst

/-- How many places of a list are not among the given ones. -/
def countOutside (places : List Location) (ancestors : List Location) : Nat :=
  (places.filter fun d => decide (d ∉ ancestors)).length

/-- The greatest number of names that lead to an entry. -/
def depth (t : FileTree) : Nat :=
  t.entries.foldr (fun e d => max e.1.length d) 0

theorem length_le_depth {t : FileTree} {location : Location} {entry : FileEntry}
    (h : t.entry? location = some entry) : location.length ≤ t.depth := by
  unfold entry? at h
  split at h
  · next hl => simp [hl]
  · unfold depth
    generalize t.entries = es at h
    induction es with
    | nil => simp at h
    | cons e es ih =>
      obtain ⟨place, found⟩ := e
      rw [List.lookup_cons] at h
      split at h
      · next hp =>
        have : location = place := by simpa using hp
        subst this
        exact Nat.le_max_left _ _
      · exact Nat.le_trans (ih h) (Nat.le_max_right _ _)

theorem mem_directories {t : FileTree} {location : Location}
    (h : t.entry? location = some .directory) : location ∈ t.directories := by
  unfold entry? at h
  split at h
  · next hl => simp [directories, hl]
  · suffices ∃ e ∈ t.entries, e.2 = .directory ∧ e.1 = location by
      obtain ⟨e, he, hd, hl⟩ := this
      exact List.mem_cons_of_mem _
        (List.mem_map.2 ⟨e, List.mem_filter.2 ⟨he, by simpa using hd⟩, hl⟩)
    generalize t.entries = es at h
    induction es with
    | nil => simp at h
    | cons e es ih =>
      obtain ⟨place, found⟩ := e
      rw [List.lookup_cons] at h
      split at h
      · next hp =>
        have hl : location = place := by simpa using hp
        have hf : found = .directory := by simpa using h
        exact ⟨(place, found), List.mem_cons_self, hf, hl.symm⟩
      · obtain ⟨e, he, hd⟩ := ih h
        exact ⟨e, List.mem_cons_of_mem _ he, hd⟩

theorem countOutside_cons_le (places : List Location) (d : Location) (ancestors : List Location) :
    countOutside places (d :: ancestors) ≤ countOutside places ancestors := by
  unfold countOutside
  induction places with
  | nil => simp
  | cons x xs ih => grind

theorem countOutside_cons_lt {places : List Location} {d : Location} {ancestors : List Location}
    (hd : d ∈ places) (h : d ∉ ancestors) :
    countOutside places (d :: ancestors) < countOutside places ancestors := by
  induction places with
  | nil => simp at hd
  | cons x xs ih =>
    have hle := countOutside_cons_le xs d ancestors
    unfold countOutside at *
    grind

/-- The place that a path leads to through all links. -/
def place? (t : FileTree) (path : String) : Option Location :=
  (t.find? path).map Prod.fst

/-- The names that lead from a directory to the files below it.  `path` is the way the search took
to the directory, and `ancestors` are the directories that it is inside of, this one among them. -/
def filesBelow (t : FileTree) (ancestors : List Location) (path : String) (here : Location) :
    List (List String) :=
  (t.namesIn here).flatMap fun name =>
    match _ : t.entry? (here ++ [name]) with
    | some (.file _) => [[name]]
    | some .directory =>
        let inside := Path.join path name
        if t.isDirectory inside then
          (t.filesBelow ((here ++ [name]) :: ancestors) inside (here ++ [name])).map (name :: ·)
        else []
    | some (.link _) =>
        let inside := Path.join path name
        match t.place? inside with
        | some place =>
            match _ : t.entry? place with
            | some (.file _) => [[name]]
            | some .directory =>
                if _ : place ∈ ancestors then []
                else (t.filesBelow (place :: ancestors) inside place).map (name :: ·)
            | _ => []
        | none => []
    | _ => []
termination_by (countOutside t.directories ancestors, t.depth - here.length)
decreasing_by
  · have hle := countOutside_cons_le t.directories (here ++ [name]) ancestors
    have hlen := length_le_depth ‹t.entry? (here ++ [name]) = some .directory›
    simp only [List.length_append, List.length_singleton] at hlen
    rcases Nat.lt_or_eq_of_le hle with hlt | heq
    · exact Prod.Lex.left _ _ hlt
    · rw [heq]
      exact Prod.Lex.right _ (by simp only [List.length_append, List.length_singleton]; omega)
  · have hd := mem_directories ‹t.entry? place = some .directory›
    exact Prod.Lex.left _ _ (countOutside_cons_lt hd ‹place ∉ ancestors›)

def endsInExtension (extension : String) (names : List String) : Bool :=
  names.getLast?.any (Path.hasExtension extension)

/-- The paths of the recordings below the directory that a path leads to, sorted name by name.  A
path that leads to a file is the only candidate itself. -/
def recordings (t : FileTree) (root extension : String) : List String :=
  match t.find? root with
  | some (_, .file _) => [root].filter (Path.hasExtension extension)
  | some (location, .directory) =>
      let found := (t.filesBelow [location] root location).filter (endsInExtension extension)
      (found.mergeSort fun a b => !decide (b < a)).map fun names =>
        Path.join root ("/".intercalate names)
  | _ => []

end ObstacleWatch.FileTree
