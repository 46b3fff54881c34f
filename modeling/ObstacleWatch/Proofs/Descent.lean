import ObstacleWatch.Proofs.NewEntries
import ObstacleWatch.Proofs.PathParts
import ObstacleWatch.Recording.Discovery

/-!
# The search below a directory

From a directory the search goes into those that have a name there, and through links to those that
it is not inside of.  Every such step uses up a directory that the search was not inside of, or a
name of the depth that is left, so the ways down are short and there are finitely many.  The search
finds what the ways lead to: the files that have a name in a directory, and the links to files.
-/

namespace ObstacleWatch.FileTree

variable {t : FileTree} {ancestors above : List Location} {path root name : String}
  {here place location : Location} {names rest : List String}

/-! ## Names in a directory -/

theorem childName?_eq_some_iff {child : Location} :
    namesIn.childName? here child = some name ↔ child = here ++ [name] := by
  induction here generalizing child with
  | nil =>
      rcases child with _ | ⟨first, _ | ⟨second, child⟩⟩ <;>
        simp [namesIn.childName?, eq_comm]
  | cons part here ih =>
      cases child with
      | nil => simp [namesIn.childName?]
      | cons first child =>
          by_cases heq : part = first
          · simp [namesIn.childName?, heq, ih]
          · simp [namesIn.childName?, heq, Ne.symm heq]

theorem mem_namesIn_iff : name ∈ t.namesIn here ↔ ∃ e ∈ t.entries, e.1 = here ++ [name] := by
  simp only [namesIn, List.mem_eraseDups, List.mem_filterMap, childName?_eq_some_iff]

theorem nodup_eraseDups {α : Type} [BEq α] [LawfulBEq α] (l : List α) : l.eraseDups.Nodup := by
  induction hlength : l.length using Nat.strongRecOn generalizing l with
  | ind n ih =>
    cases l with
    | nil => exact List.nodup_nil
    | cons a l =>
        rw [List.eraseDups_cons, List.nodup_cons, List.mem_eraseDups]
        refine ⟨by simp, ih _ ?_ _ rfl⟩
        have hshorter := List.length_filter_le (fun b => !b == a) l
        rw [← hlength, List.length_cons]
        omega

theorem exists_mem_entries {entry : FileEntry} (hne : location ≠ [])
    (hentry : t.entry? location = some entry) : (location, entry) ∈ t.entries := by
  unfold entry? at hentry
  rw [if_neg hne, List.lookup_eq_some_iff] at hentry
  obtain ⟨front, later, hentries, -⟩ := hentry
  simp [hentries]

theorem mem_namesIn_of_entry? {entry : FileEntry}
    (hentry : t.entry? (here ++ [name]) = some entry) : name ∈ t.namesIn here :=
  mem_namesIn_iff.mpr ⟨_, exists_mem_entries (by simp) hentry, rfl⟩

/-! ## One step of the search -/

/-- The search goes from a directory into another one, by a name that the directory or a link to it
has there.  `ancestors` are the directories that the search is inside of; a link to one of them is
passed over. -/
inductive Enters (t : FileTree) (ancestors : List Location) (path : String) (here : Location)
    (name : String) : Location → Prop
  | directly (hentry : t.entry? (here ++ [name]) = some .directory)
      (hopens : t.isDirectory (Path.join path name) = true) :
      Enters t ancestors path here name (here ++ [name])
  | byLink {text : String} {place : Location}
      (hentry : t.entry? (here ++ [name]) = some (.link text))
      (hleads : t.place? (Path.join path name) = some place)
      (hplace : t.entry? place = some .directory) (hnew : place ∉ ancestors) :
      Enters t ancestors path here name place

/-- A directory holds a file, or a link to one, under a name. -/
inductive HoldsFile (t : FileTree) (path : String) (here : Location) (name : String) : Prop
  | directly {octets : List UInt8} (hentry : t.entry? (here ++ [name]) = some (.file octets))
  | byLink {text : String} {place : Location} {octets : List UInt8}
      (hentry : t.entry? (here ++ [name]) = some (.link text))
      (hleads : t.place? (Path.join path name) = some place)
      (hplace : t.entry? place = some (.file octets))

/-- What the search finds behind one name of a directory. -/
def filesBehind (t : FileTree) (ancestors : List Location) (path : String) (here : Location)
    (name : String) : List (List String) :=
  match t.entry? (here ++ [name]) with
  | some (.file _) => [[name]]
  | some .directory =>
      if t.isDirectory (Path.join path name) then
        (t.filesBelow ((here ++ [name]) :: ancestors) (Path.join path name) (here ++ [name])).map
          (name :: ·)
      else []
  | some (.link _) =>
      (t.place? (Path.join path name)).elim [] fun place =>
        match t.entry? place with
        | some (.file _) => [[name]]
        | some .directory =>
            if ancestors.contains place then []
            else (t.filesBelow (place :: ancestors) (Path.join path name) place).map (name :: ·)
        | _ => []
  | _ => []

theorem filesBelow_eq (t : FileTree) (ancestors : List Location) (path : String)
    (here : Location) :
    t.filesBelow ancestors path here =
      (t.namesIn here).flatMap (t.filesBehind ancestors path here) := by
  rw [filesBelow]
  refine List.flatMap_congr fun name _ => ?_
  unfold filesBehind
  split
  case h_3 text hentry =>
    simp only [hentry]
    cases hleads : t.place? (Path.join path name) with
    | none => rfl
    | some place =>
        rw [Option.elim_some]
        dsimp only
        split
        case h_1 octets hplace => simp only [hplace]
        case h_2 hplace => simp only [hplace, dite_eq_ite, List.contains_iff_mem]
        case h_3 hfile hdirectory =>
          split
          · exact absurd ‹_› (hfile _)
          · exact absurd ‹_› hdirectory
          · rfl
  all_goals simp_all

theorem mem_filesBehind_iff :
    names ∈ t.filesBehind ancestors path here name ↔
      (names = [name] ∧ t.HoldsFile path here name) ∨
        ∃ place rest, names = name :: rest ∧ t.Enters ancestors path here name place ∧
          rest ∈ t.filesBelow (place :: ancestors) (Path.join path name) place := by
  constructor
  · intro hmem
    unfold filesBehind at hmem
    split at hmem
    next octets hentry => exact .inl ⟨List.mem_singleton.mp hmem, .directly hentry⟩
    next hentry =>
      split at hmem
      next hopens =>
        obtain ⟨rest, hrest, rfl⟩ := List.mem_map.mp hmem
        exact .inr ⟨_, rest, rfl, .directly hentry hopens, hrest⟩
      next => contradiction
    next text hentry =>
      cases hleads : t.place? (Path.join path name) with
      | none => simp [hleads] at hmem
      | some place =>
          rw [hleads, Option.elim_some] at hmem
          split at hmem
          next octets hplace =>
            exact .inl ⟨List.mem_singleton.mp hmem, .byLink hentry hleads hplace⟩
          next hplace =>
            split at hmem
            next => contradiction
            next hnew =>
              rw [List.contains_iff_mem] at hnew
              obtain ⟨rest, hrest, rfl⟩ := List.mem_map.mp hmem
              exact .inr ⟨place, rest, rfl, .byLink hentry hleads hplace hnew, hrest⟩
          next => contradiction
    next => contradiction
  · unfold filesBehind
    rintro (⟨rfl, hfile⟩ | ⟨place, rest, rfl, henters, hrest⟩)
    · cases hfile with
      | directly hentry => simp [hentry]
      | byLink hentry hleads hplace => simp [hentry, hleads, hplace]
    · cases henters with
      | directly hentry hopens => simp [hentry, hopens, hrest]
      | byLink hentry hleads hplace hnew => simp [hentry, hleads, hplace, hnew, hrest]

theorem mem_filesBelow_iff :
    names ∈ t.filesBelow ancestors path here ↔
      ∃ name, (names = [name] ∧ t.HoldsFile path here name) ∨
        ∃ place rest, names = name :: rest ∧ t.Enters ancestors path here name place ∧
          rest ∈ t.filesBelow (place :: ancestors) (Path.join path name) place := by
  rw [filesBelow_eq, List.mem_flatMap]
  constructor
  · rintro ⟨name, -, hmem⟩
    exact ⟨name, mem_filesBehind_iff.mp hmem⟩
  · rintro ⟨name, hmem⟩
    refine ⟨name, ?_, mem_filesBehind_iff.mpr hmem⟩
    obtain ⟨-, ⟨hentry⟩ | ⟨hentry⟩⟩ | ⟨_, _, -, ⟨hentry⟩ | ⟨hentry⟩, -⟩ := hmem
    all_goals exact mem_namesIn_of_entry? hentry

theorem head?_of_mem_filesBehind (hmem : names ∈ t.filesBehind ancestors path here name) :
    names.head? = some name := by
  obtain ⟨rfl, -⟩ | ⟨place, rest, rfl, -⟩ := mem_filesBehind_iff.mp hmem <;> rfl

/-- The search finds nothing twice. -/
theorem nodup_filesBelow (t : FileTree) (ancestors : List Location) (path : String)
    (here : Location) : (t.filesBelow ancestors path here).Nodup := by
  induction ancestors, path, here using filesBelow.induct t with
  | case1 ancestors path here ihdirectory ihlink =>
      rw [filesBelow_eq, List.nodup_flatMap]
      constructor
      · intro name _
        unfold filesBehind
        split
        · exact List.nodup_singleton _
        · split
          · exact (ihdirectory name ‹_›).map List.cons_injective
          · exact List.nodup_nil
        · cases t.place? (Path.join path name) with
          | none => exact List.nodup_nil
          | some place =>
              rw [Option.elim_some]
              split
              · exact List.nodup_singleton _
              · split
                · exact List.nodup_nil
                next hnew =>
                  rw [List.contains_iff_mem] at hnew
                  exact (ihlink name _ ‹_› hnew).map List.cons_injective
              · exact List.nodup_nil
        · exact List.nodup_nil
      · -- What is found behind different names differs in its first name.
        refine (nodup_eraseDups _).imp fun {first later} hne names hfirst hlater => ?_
        have hsame := (head?_of_mem_filesBehind hfirst).symm.trans (head?_of_mem_filesBehind hlater)
        exact hne (Option.some.inj hsame)

/-! ## The ways down -/

/-- The search comes from the root along names to a directory; `above` are the directories that it
has come through. -/
inductive Descends (t : FileTree) (root : String) :
    List String → Location → List Location → Prop
  | start {place : Location} (hroot : t.find? root = some (place, .directory)) :
      Descends t root [] place []
  | step {names : List String} {here place : Location} {above : List Location} {name : String}
      (hdescends : Descends t root names here above)
      (henters : t.Enters (here :: above) (Path.along root names) here name place) :
      Descends t root (names ++ [name]) place (here :: above)

theorem along_concat (root : String) (names : List String) (name : String) :
    Path.along root (names ++ [name]) = Path.join (Path.along root names) name :=
  List.foldl_concat ..

theorem Enters.unique {place' : Location} (henters : t.Enters ancestors path here name place)
    (henters' : t.Enters ancestors path here name place') : place = place' := by
  cases henters with
  | directly hentry =>
      cases henters' with
      | directly => rfl
      | byLink hentry' =>
          rw [hentry] at hentry'
          cases hentry'
  | byLink hentry hleads =>
      cases henters' with
      | directly hentry' =>
          rw [hentry] at hentry'
          cases hentry'
      | byLink _ hleads' => exact Option.some.inj (hleads.symm.trans hleads')

/-- A way down is given by its names. -/
theorem Descends.unique {here' : Location} {above' : List Location}
    (hdescends : t.Descends root names here above)
    (hdescends' : t.Descends root names here' above') : here = here' ∧ above = above' := by
  induction hdescends generalizing here' above' with
  | start hroot =>
      generalize hnil : ([] : List String) = names at hdescends'
      cases hdescends' with
      | start hroot' =>
          rw [hroot] at hroot'
          cases hroot'
          exact ⟨rfl, rfl⟩
      | step => simp at hnil
  | @step names here place above name hdescends henters ih =>
      generalize hwhole : names ++ [name] = whole at hdescends'
      cases hdescends' with
      | start => simp at hwhole
      | step hdescends' henters' =>
          obtain ⟨rfl, rfl⟩ := List.append_singleton_inj.mp hwhole
          obtain ⟨rfl, rfl⟩ := ih hdescends'
          exact ⟨henters.unique henters', rfl⟩

/-- What is found below a directory is found from the root. -/
theorem Descends.mem_filesBelow (hdescends : t.Descends root names here above)
    (hroot : t.find? root = some (location, .directory))
    (hrest : rest ∈ t.filesBelow (here :: above) (Path.along root names) here) :
    names ++ rest ∈ t.filesBelow [location] root location := by
  induction hdescends generalizing rest with
  | start hroot' =>
      rw [hroot] at hroot'
      cases hroot'
      exact hrest
  | step hdescends henters ih =>
      rw [along_concat] at hrest
      rw [List.append_assoc]
      exact ih (mem_filesBelow_iff.mpr ⟨_, .inr ⟨_, _, rfl, henters, hrest⟩⟩)

/-- What is found below a directory stands at the end of a way down. -/
theorem Descends.exists_of_mem_filesBelow (hdescends : t.Descends root names here above)
    (hrest : rest ∈ t.filesBelow (here :: above) (Path.along root names) here) :
    ∃ front name last behind, rest = front ++ [name] ∧
      t.Descends root (names ++ front) last behind ∧
        t.HoldsFile (Path.along root (names ++ front)) last name := by
  induction rest generalizing names here above with
  | nil =>
      obtain ⟨name, ⟨hnames, -⟩ | ⟨_, _, hnames, -⟩⟩ := mem_filesBelow_iff.mp hrest <;> cases hnames
  | cons first rest ih =>
      obtain ⟨name, ⟨hnames, hfile⟩ | ⟨place, rest', hnames, henters, hrest'⟩⟩ :=
        mem_filesBelow_iff.mp hrest
      · obtain ⟨rfl, rfl⟩ := List.cons.inj hnames
        exact ⟨[], first, here, above, rfl, by rwa [List.append_nil], by rwa [List.append_nil]⟩
      · obtain ⟨rfl, rfl⟩ := List.cons.inj hnames
        rw [← along_concat] at hrest'
        obtain ⟨front, name, last, behind, rfl, hlast, hfile⟩ := ih (.step hdescends henters) hrest'
        rw [List.append_assoc] at hlast hfile
        exact ⟨first :: front, name, last, behind, rfl, hlast, hfile⟩

/-! ## The end of the search -/

/-- How many steps the search can still take from a directory. -/
def budget (t : FileTree) (here : Location) (above : List Location) : Nat :=
  countOutside t.directories (here :: above) * (t.depth + 1) + (t.depth - here.length)

theorem Enters.budget_lt (henters : t.Enters (here :: above) path here name place) :
    t.budget place (here :: above) < t.budget here above := by
  -- One directory less outweighs all the depth that can be won back.
  have hfewer (hless : countOutside t.directories (place :: here :: above) <
      countOutside t.directories (here :: above)) :
      t.budget place (here :: above) < t.budget here above := by
    calc t.budget place (here :: above)
        < (countOutside t.directories (place :: here :: above) + 1) * (t.depth + 1) := by
          rw [budget, Nat.add_mul]
          omega
      _ ≤ countOutside t.directories (here :: above) * (t.depth + 1) :=
          Nat.mul_le_mul_right _ hless
      _ ≤ t.budget here above := Nat.le_add_right _ _
  cases henters with
  | directly hentry _ =>
      obtain hless | hsame := Nat.lt_or_eq_of_le
        (countOutside_cons_le t.directories (here ++ [name]) (here :: above))
      · exact hfewer hless
      · have hdepth := length_le_depth hentry
        rw [List.length_append, List.length_singleton] at hdepth
        rw [budget, budget, hsame, List.length_append, List.length_singleton]
        omega
  | byLink _ _ hplace hnew => exact hfewer (countOutside_cons_lt (mem_directories hplace) hnew)

theorem Descends.length_add_budget_le (hdescends : t.Descends root names here above) :
    names.length + t.budget here above ≤ t.directories.length * (t.depth + 1) + t.depth := by
  induction hdescends with
  | @start place hroot =>
      have hplaces : countOutside t.directories [place] ≤ t.directories.length :=
        List.length_filter_le _ _
      rw [List.length_nil, Nat.zero_add]
      exact Nat.add_le_add (Nat.mul_le_mul_right _ hplaces) (Nat.sub_le _ _)
  | step _ henters ih =>
      have hless := henters.budget_lt
      rw [List.length_append, List.length_singleton]
      omega

theorem Descends.length_lt (hdescends : t.Descends root names here above) :
    names.length < (t.directories.length + 1) * (t.depth + 1) := by
  have hle := hdescends.length_add_budget_le
  rw [Nat.add_mul]
  omega

theorem Enters.mem_namesIn (henters : t.Enters ancestors path here name place) :
    name ∈ t.namesIn here := by
  cases henters with
  | directly hentry => exact mem_namesIn_of_entry? hentry
  | byLink hentry => exact mem_namesIn_of_entry? hentry

/-- There are finitely many ways down, so the search ends. -/
theorem finite_descends (t : FileTree) (root : String) :
    {names | ∃ here above, t.Descends root names here above}.Finite := by
  have hshort (n : Nat) :
      {names | names.length ≤ n ∧ ∃ here above, t.Descends root names here above}.Finite := by
    induction n with
    | zero =>
        refine (Set.finite_singleton []).subset fun names hnames => ?_
        exact List.length_eq_zero_iff.mp (Nat.le_zero.mp hnames.1)
    | succ n ih =>
        -- A longer way is a shorter one and a name of the tree.
        have hnext := Set.Finite.image2 (fun names name => names ++ [name]) ih
          (List.finite_toSet (t.entries.flatMap Prod.fst))
        refine ((Set.finite_singleton []).union hnext).subset ?_
        rintro names ⟨hlength, here, above, hdescends⟩
        cases hdescends with
        | start => exact .inl rfl
        | @step names here place above name hdescends henters =>
            rw [List.length_append, List.length_singleton] at hlength
            refine .inr ⟨names, ⟨Nat.le_of_succ_le_succ hlength, _, _, hdescends⟩, name, ?_, rfl⟩
            obtain ⟨e, he, hplace⟩ := mem_namesIn_iff.mp henters.mem_namesIn
            exact List.mem_flatMap.mpr ⟨e, he, by simp [hplace]⟩
  refine (hshort ((t.directories.length + 1) * (t.depth + 1))).subset ?_
  rintro names ⟨here, above, hdescends⟩
  exact ⟨hdescends.length_lt.le, here, above, hdescends⟩

/-! ## More entries -/

theorem place?_put_of_some {found : Location} {entry : FileEntry}
    (hfree : t.entry? location = none) (hfound : t.place? path = some found) :
    (t.put location entry).place? path = some found := by
  obtain ⟨⟨place, held⟩, hfind, rfl⟩ := Option.map_eq_some_iff.mp hfound
  rw [place?, find?_put_of_some hfree hfind, Option.map_some]

theorem Enters.put (henters : t.Enters ancestors path here name place)
    (hfree : t.entry? location = none) (entry : FileEntry) :
    (t.put location entry).Enters ancestors path here name place := by
  cases henters with
  | directly hentry hopens =>
      exact .directly (entry?_put_of_some hfree hentry) (isDirectory_put hfree hopens)
  | byLink hentry hleads hplace hnew =>
      exact .byLink (entry?_put_of_some hfree hentry) (place?_put_of_some hfree hleads)
        (entry?_put_of_some hfree hplace) hnew

theorem HoldsFile.put (hfile : t.HoldsFile path here name) (hfree : t.entry? location = none)
    (entry : FileEntry) : (t.put location entry).HoldsFile path here name := by
  cases hfile with
  | directly hentry => exact .directly (entry?_put_of_some hfree hentry)
  | byLink hentry hleads hplace =>
      exact .byLink (entry?_put_of_some hfree hentry) (place?_put_of_some hfree hleads)
        (entry?_put_of_some hfree hplace)

/-- Whatever is put at a free place, the ways down stay. -/
theorem Descends.put (hdescends : t.Descends root names here above)
    (hfree : t.entry? location = none) (entry : FileEntry) :
    (t.put location entry).Descends root names here above := by
  induction hdescends with
  | start hroot => exact .start (find?_put_of_some hfree hroot)
  | step _ henters ih => exact .step ih (henters.put hfree entry)

end ObstacleWatch.FileTree
