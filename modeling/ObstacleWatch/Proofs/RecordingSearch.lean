import ObstacleWatch.Proofs.Descent

/-!
# The search for recordings is exact

The paths that are told are those of the files that a way from the root leads to, as far as they
have the extension, each once and in the order of paths.  A way passes over links to directories
that it comes through, but a directory that has a name in another one is entered even then: behind a
link out of the root the search can come into the root again.
-/

namespace ObstacleWatch.FileTree

variable {t : FileTree} {above : List Location} {path root extension name : String}
  {here place location : Location} {names first later : List String}

/-! ## Paths of the files that are found -/

/-- Every place of the tree is given by names. -/
def HasNames (t : FileTree) : Prop :=
  ∀ e ∈ t.entries, ∀ name ∈ e.1, Path.IsName name

instance (t : FileTree) : Decidable t.HasNames :=
  inferInstanceAs (Decidable (∀ e ∈ t.entries, ∀ name ∈ e.1, Path.IsName name))

theorem HasNames.isName (hnames : t.HasNames) (hname : name ∈ t.namesIn here) :
    Path.IsName name := by
  obtain ⟨e, he, hplace⟩ := mem_namesIn_iff.mp hname
  exact hnames e he name (by simp [hplace])

theorem HasNames.isName_of_descends (hnames : t.HasNames)
    (hdescends : t.Descends root names here above) : ∀ name ∈ names, Path.IsName name := by
  induction hdescends with
  | start => exact nofun
  | step _ henters ih =>
      exact List.forall_mem_append.mpr
        ⟨ih, List.forall_mem_singleton.mpr (hnames.isName henters.mem_namesIn)⟩

theorem HoldsFile.mem_namesIn (hfile : t.HoldsFile path here name) : name ∈ t.namesIn here := by
  cases hfile with
  | directly hentry => exact mem_namesIn_of_entry? hentry
  | byLink hentry => exact mem_namesIn_of_entry? hentry

theorem ne_empty_of_find? {found : Location × FileEntry} (hfound : t.find? path = some found) :
    path ≠ "" := by
  rintro rfl
  obtain ⟨-, hempty, -⟩ := resolve_eq_ok_iff.mp (find?_eq_some_iff.mp hfound)
  exact hempty rfl

/-- Paths along names stand in the order of the names. -/
theorem before_along (hroot : root ≠ "") (hfirst : ∀ name ∈ first, Path.IsName name)
    (hlater : ∀ name ∈ later, Path.IsName name) (hlt : first < later) :
    Path.Before (Path.along root first) (Path.along root later) := by
  have hparts : List.Lex Path.Part.Before (first.map .name) (later.map .name) := by
    rw [← List.lex_lt] at hlt
    induction hlt with
    | nil => exact .nil
    | rel hlt => exact .rel (.name hlt)
    | cons _ ih =>
        exact .cons (ih (List.forall_mem_cons.mp hfirst).2 (List.forall_mem_cons.mp hlater).2)
  rw [Path.Before, Path.parts_along hroot hfirst, Path.parts_along hroot hlater]
  exact hparts.append_left _ _

/-! ## What is told -/

/-- Names lead from the root to a file: the root is one itself, or the last is the name of one, or
of a link to one, in a directory that the search comes to. -/
inductive Reaches (t : FileTree) (root : String) : List String → Prop
  | root {place : Location} {octets : List UInt8}
      (hroot : t.find? root = some (place, .file octets)) : Reaches t root []
  | below {names : List String} {here : Location} {above : List Location} {name : String}
      (hdescends : t.Descends root names here above)
      (hfile : t.HoldsFile (Path.along root names) here name) : Reaches t root (names ++ [name])

theorem mem_filesBelow_root_iff (hroot : t.find? root = some (location, .directory)) :
    names ∈ t.filesBelow [location] root location ↔ t.Reaches root names := by
  constructor
  · intro hmem
    obtain ⟨front, name, here, above, rfl, hdescends, hfile⟩ :=
      (Descends.start hroot).exists_of_mem_filesBelow hmem
    exact .below hdescends hfile
  · intro hreaches
    cases hreaches with
    | root hfile =>
        rw [hroot] at hfile
        cases hfile
    | below hdescends hfile =>
        exact hdescends.mem_filesBelow hroot (mem_filesBelow_iff.mpr ⟨_, .inl ⟨rfl, hfile⟩⟩)

theorem Descends.exists_root (hdescends : t.Descends root names here above) :
    ∃ place, t.find? root = some (place, .directory) := by
  induction hdescends with
  | start hroot => exact ⟨_, hroot⟩
  | step _ _ ih => exact ih

theorem HasNames.isName_of_reaches (hnames : t.HasNames) (hreaches : t.Reaches root names) :
    ∀ name ∈ names, Path.IsName name := by
  cases hreaches with
  | root => exact nofun
  | below hdescends hfile =>
      exact List.forall_mem_append.mpr ⟨hnames.isName_of_descends hdescends,
        List.forall_mem_singleton.mpr (hnames.isName hfile.mem_namesIn)⟩

theorem reaches_nil_iff :
    t.Reaches root [] ↔ ∃ place octets, t.find? root = some (place, .file octets) := by
  constructor
  · intro hreaches
    generalize hnil : ([] : List String) = names at hreaches
    cases hreaches with
    | root hroot => exact ⟨_, _, hroot⟩
    | below => simp at hnil
  · rintro ⟨place, octets, hroot⟩
    exact .root hroot

theorem Reaches.exists_directory (hreaches : t.Reaches root (names ++ [name])) :
    ∃ place, t.find? root = some (place, .directory) := by
  generalize hwhole : names ++ [name] = whole at hreaches
  cases hreaches with
  | root => simp at hwhole
  | below hdescends => exact hdescends.exists_root

/-- The recordings before they are sorted. -/
theorem mem_recordings_iff :
    path ∈ t.recordings root extension ↔
      (path = root ∧ t.Reaches root [] ∧ Path.hasExtension extension root = true) ∨
        ∃ names name, t.Reaches root (names ++ [name]) ∧
          Path.hasExtension extension name = true ∧
            path = Path.join root ("/".intercalate (names ++ [name])) := by
  have hdirectory (hnone : ∀ place, t.find? root ≠ some (place, .directory)) :
      ¬∃ names name, t.Reaches root (names ++ [name]) ∧
        Path.hasExtension extension name = true ∧
          path = Path.join root ("/".intercalate (names ++ [name])) := by
    rintro ⟨names, name, hreaches, -⟩
    obtain ⟨place, hroot⟩ := hreaches.exists_directory
    exact hnone place hroot
  unfold recordings
  rcases hroot : t.find? root with _ | ⟨location, octets | _ | target | device⟩
  case some.file =>
    have hfile : t.Reaches root [] := .root hroot
    rw [or_iff_left (hdirectory (by simp [hroot]))]
    simp only [List.mem_filter, List.mem_singleton, hfile, true_and]
    exact and_congr_right fun heq => by rw [heq]
  case some.directory =>
    have hnofile : ¬t.Reaches root [] := by simp [reaches_nil_iff, hroot]
    simp only [hnofile, false_and, and_false, false_or, List.mem_map, List.mem_mergeSort,
      List.mem_filter, mem_filesBelow_root_iff hroot]
    constructor
    · rintro ⟨_, ⟨hreaches, hextension⟩, rfl⟩
      cases hreaches with
      | root => exact absurd (reaches_nil_iff.mpr ⟨_, _, ‹_›⟩) hnofile
      | @below names here above name hdescends hfile =>
          rw [endsInExtension, List.getLast?_concat] at hextension
          exact ⟨names, name, .below hdescends hfile, hextension, rfl⟩
    · rintro ⟨names, name, hreaches, hextension, rfl⟩
      refine ⟨_, ⟨hreaches, ?_⟩, rfl⟩
      rwa [endsInExtension, List.getLast?_concat]
  all_goals
    have hnofile : ¬t.Reaches root [] := by simp [reaches_nil_iff, hroot]
    have hnothing := hdirectory (by simp [hroot])
    simp only [hnofile, hnothing, false_and, and_false, or_false, List.not_mem_nil]

/-- The recordings are the files that are reached and have the extension. -/
theorem HasNames.mem_recordings_iff (hnames : t.HasNames) :
    path ∈ t.recordings root extension ↔
      Path.EndsIn extension path ∧
        ∃ names, path = Path.along root names ∧ t.Reaches root names := by
  have halong {names : List String} {name : String} (hreaches : t.Reaches root (names ++ [name])) :
      Path.join root ("/".intercalate (names ++ [name])) = Path.along root (names ++ [name]) ∧
        (Path.hasExtension extension name = true ↔
          Path.EndsIn extension (Path.along root (names ++ [name]))) := by
    have hwhole := hnames.isName_of_reaches hreaches
    refine ⟨Path.join_intercalate (by simp) hwhole, ?_⟩
    rw [along_concat, Path.endsIn_join (hwhole name (by simp)), Path.hasExtension_iff]
  rw [FileTree.mem_recordings_iff]
  constructor
  · rintro (⟨rfl, hreaches, hextension⟩ | ⟨names, name, hreaches, hextension, rfl⟩)
    · exact ⟨Path.hasExtension_iff.mp hextension, [], rfl, hreaches⟩
    · rw [(halong hreaches).1]
      exact ⟨(halong hreaches).2.mp hextension, _, rfl, hreaches⟩
  · rintro ⟨hextension, names, rfl, hreaches⟩
    obtain rfl | ⟨names, name, rfl⟩ := List.eq_nil_or_concat' names
    · exact .inl ⟨rfl, hreaches, Path.hasExtension_iff.mpr hextension⟩
    · exact .inr ⟨names, name, hreaches, (halong hreaches).2.mpr hextension,
        (halong hreaches).1.symm⟩

/-- What is put at a free place takes no recording away. -/
theorem recordings_subset_put {entry : FileEntry} (hfree : t.entry? location = none) :
    t.recordings root extension ⊆ (t.put location entry).recordings root extension := by
  intro path hpath
  have hput (names : List String) (hreaches : t.Reaches root names) :
      (t.put location entry).Reaches root names := by
    cases hreaches with
    | root hroot => exact .root (find?_put_of_some hfree hroot)
    | below hdescends hfile => exact .below (hdescends.put hfree entry) (hfile.put hfree entry)
  rw [mem_recordings_iff] at hpath ⊢
  obtain ⟨rfl, hreaches, hextension⟩ | ⟨names, name, hreaches, hextension, rfl⟩ := hpath
  · exact .inl ⟨rfl, hput _ hreaches, hextension⟩
  · exact .inr ⟨names, name, hput _ hreaches, hextension, rfl⟩

theorem pairwise_before_recordings (hnames : t.HasNames) (root extension : String) :
    (t.recordings root extension).Pairwise Path.Before := by
  unfold recordings
  rcases hroot : t.find? root with _ | ⟨location, octets | _ | target | device⟩
  case some.file => exact (List.pairwise_singleton _ root).filter _
  case some.directory =>
    have hnodup := (nodup_filesBelow t [location] root location).filter
      (endsInExtension extension)
    have hsound : ∀ names ∈ (t.filesBelow [location] root location).filter
        (endsInExtension extension), names ≠ [] ∧ ∀ name ∈ names, Path.IsName name := by
      intro names hmem
      have hreaches := (mem_filesBelow_root_iff hroot).mp (List.mem_filter.mp hmem).1
      refine ⟨?_, hnames.isName_of_reaches hreaches⟩
      rintro rfl
      simp [reaches_nil_iff, hroot] at hreaches
    dsimp only
    generalize (t.filesBelow [location] root location).filter (endsInExtension extension) =
      found at hnodup hsound ⊢
    have hsorted := (pairwise_mergeSort_names found).and
      ((List.mergeSort_perm found _).nodup_iff.mpr hnodup)
    rw [List.pairwise_map]
    refine hsorted.imp_of_mem fun {first later} hfirst hlater ⟨hle, hne⟩ => ?_
    obtain ⟨hfirstne, hfirst⟩ := hsound first (List.mem_mergeSort.mp hfirst)
    obtain ⟨hlaterne, hlater⟩ := hsound later (List.mem_mergeSort.mp hlater)
    rw [Path.join_intercalate hfirstne hfirst, Path.join_intercalate hlaterne hlater]
    exact before_along (ne_empty_of_find? hroot) hfirst hlater (lt_of_le_of_ne (not_lt.mp hle) hne)
  all_goals exact .nil

theorem nodup_recordings (hnames : t.HasNames) (root extension : String) :
    (t.recordings root extension).Nodup := by
  refine (pairwise_before_recordings hnames root extension).imp ?_
  rintro first _ hbefore rfl
  exact Path.not_before_self first hbefore

/-- The paths that are told of the recordings below a root. -/
structure FindsRecordings (t : FileTree) (root extension : String) : Prop where
  ends : {names | ∃ here above, t.Descends root names here above}.Finite
  bounded : ∀ {names here above}, t.Descends root names here above →
    names.length < (t.directories.length + 1) * (t.depth + 1)
  increasing : (t.recordings root extension).Pairwise Path.Before
  nodup : (t.recordings root extension).Nodup
  mem_iff : ∀ path, path ∈ t.recordings root extension ↔
    Path.EndsIn extension path ∧ ∃ names, path = Path.along root names ∧ t.Reaches root names
  kept : ∀ location entry, t.entry? location = none →
    t.recordings root extension ⊆ (t.put location entry).recordings root extension

/-- The search ends and tells the files that the ways down lead to, in the order of their paths and
each once; no entry keeps another one from being found. -/
theorem finds_recordings (hnames : t.HasNames) (root extension : String) :
    t.FindsRecordings root extension where
  ends := finite_descends t root
  bounded := Descends.length_lt
  increasing := pairwise_before_recordings hnames root extension
  nodup := nodup_recordings hnames root extension
  mem_iff := fun _ => hnames.mem_recordings_iff
  kept := fun _ _ => recordings_subset_put

/-! ## A directory that is entered again -/

/-- Names lead from the root to a file, and the way comes into no directory that it is inside of. -/
inductive ReachesAfresh (t : FileTree) (root : String) : List String → Prop
  | root {place : Location} {octets : List UInt8}
      (hroot : t.find? root = some (place, .file octets)) : ReachesAfresh t root []
  | below {names : List String} {here : Location} {above : List Location} {name : String}
      (hdescends : t.Descends root names here above) (hafresh : (here :: above).Nodup)
      (hfile : t.HoldsFile (Path.along root names) here name) :
      ReachesAfresh t root (names ++ [name])

theorem ReachesAfresh.reaches (hreaches : t.ReachesAfresh root names) : t.Reaches root names := by
  cases hreaches with
  | root hroot => exact .root hroot
  | below hdescends _ hfile => exact .below hdescends hfile

/-- A directory with a link out of it, a link to a file, a link that leads nowhere and a file whose
name has no extension. -/
def upLinkTree : FileTree :=
  ⟨[(["a"], .directory), (["a", "b"], .directory), (["a", "b", "g.jsonl"], .file []),
    (["a", "b", "up"], .link ".."), (["a", "b", "copy.JSONL"], .link "g.jsonl"),
    (["a", "b", "gone.jsonl"], .link "missing"), (["a", "b", ".jsonl"], .file [])], []⟩

theorem descends_upLinkTree :
    upLinkTree.Descends "a/b" ["up", "b"] ["a", "b"] [["a"], ["a", "b"]] := by
  have hroot : upLinkTree.Descends "a/b" [] ["a", "b"] [] := .start (by decide +kernel)
  have hup : upLinkTree.Enters [["a", "b"]] "a/b" ["a", "b"] "up" ["a"] :=
    .byLink rfl (by decide +kernel) rfl (by decide)
  have hback : upLinkTree.Enters [["a"], ["a", "b"]] "a/b/up" ["a"] "b" ["a", "b"] :=
    .directly rfl (by decide +kernel)
  exact (hroot.step hup).step hback

theorem reaches_upLinkTree : upLinkTree.Reaches "a/b" ["up", "b", "copy.JSONL"] := by
  have hleads : upLinkTree.place? "a/b/up/b/copy.JSONL" = some ["a", "b", "g.jsonl"] := by
    decide +kernel
  have hfile : upLinkTree.HoldsFile "a/b/up/b" ["a", "b"] "copy.JSONL" := .byLink rfl hleads rfl
  exact .below descends_upLinkTree hfile

theorem mem_recordings_upLinkTree :
    "a/b/up/b/copy.JSONL" ∈ upLinkTree.recordings "a/b" "jsonl" := by
  have hnames : upLinkTree.HasNames := by decide +kernel
  refine hnames.mem_recordings_iff.mpr ⟨?_, _, ?_, reaches_upLinkTree⟩
  · exact Path.hasExtension_iff.mp (by decide +kernel)
  · decide +kernel

/-- A recording can be told whose way comes into a directory that it is inside of. -/
theorem recording_in_directory_entered_again :
    upLinkTree.HasNames ∧
      ¬("a/b/up/b/copy.JSONL" ∈ upLinkTree.recordings "a/b" "jsonl" ↔
        Path.EndsIn "jsonl" "a/b/up/b/copy.JSONL" ∧
          ∃ names, "a/b/up/b/copy.JSONL" = Path.along "a/b" names ∧
            upLinkTree.ReachesAfresh "a/b" names) := by
  have hnames : upLinkTree.HasNames := by decide +kernel
  refine ⟨hnames, fun hiff => ?_⟩
  obtain ⟨-, names, hpath, hafresh⟩ := hiff.mp mem_recordings_upLinkTree
  have hparts := congrArg Path.parts hpath
  rw [Path.parts_along (by decide) (hnames.isName_of_reaches hafresh.reaches)] at hparts
  have hwhole : Path.parts "a/b/up/b/copy.JSONL" =
      Path.parts "a/b" ++ ["up", "b", "copy.JSONL"].map .name := by decide +kernel
  have hsame : names = ["up", "b"] ++ ["copy.JSONL"] := by
    rw [hwhole] at hparts
    have hinjective := List.map_injective_iff.mpr fun _ _ => Path.Part.name.inj
    exact (hinjective (List.append_cancel_left hparts)).symm
  -- The way is given by its names, and it comes from above into the root again.
  cases hafresh with
  | root => contradiction
  | below hdescends hnodup _ =>
    obtain ⟨rfl, rfl⟩ := List.append_singleton_inj.mp hsame
    obtain ⟨rfl, rfl⟩ := hdescends.unique descends_upLinkTree
    exact absurd hnodup (by decide)

theorem finds_recordings_behind_links :
    upLinkTree.HasNames ∧ upLinkTree.FindsRecordings "a/b" "jsonl" ∧
      "a/b/up/b/copy.JSONL" ∈ upLinkTree.recordings "a/b" "jsonl" ∧
      "a/b/up/b/.jsonl" ∉ upLinkTree.recordings "a/b" "jsonl" := by
  have hnames : upLinkTree.HasNames := by decide +kernel
  have hfinds := finds_recordings hnames "a/b" "jsonl"
  refine ⟨hnames, hfinds, (hfinds.mem_iff _).mpr ⟨?_, _, ?_, reaches_upLinkTree⟩, fun hmem => ?_⟩
  · exact Path.hasExtension_iff.mp (by decide +kernel)
  · decide +kernel
  · have hextension := Path.hasExtension_iff.mpr ((hfinds.mem_iff _).mp hmem).1
    exact absurd hextension (by decide +kernel)

end ObstacleWatch.FileTree
