import Mathlib
import ObstacleWatch.Files.Path

/-!
# The parts of a path

Paths are compared part by part, not letter by letter: a slash only divides, and slashes in a row or
a point on the way count for nothing.  To a path a name may be joined; then the parts of the path
stay, and the name is the last.  The extension of a path is what follows the last point of its name,
if something stands before that point.
-/

namespace ObstacleWatch.Path

/-- A text that can name an entry of a directory. -/
def IsName (name : String) : Prop :=
  name ≠ "" ∧ '/' ∉ name.toList ∧ name ≠ "." ∧ name ≠ ".."

instance (name : String) : Decidable (IsName name) :=
  inferInstanceAs (Decidable (_ ∧ _ ∧ _ ∧ _))

inductive Part where
  | top
  | here
  | up
  | name (text : String)
  deriving DecidableEq

namespace Part

def ofPiece (piece : String) : Part :=
  if piece = ".." then up else name piece

/-- The top comes first, then the points, and names stand in the order of their characters. -/
inductive Before : Part → Part → Prop
  | top_here : Before top here
  | top_up : Before top up
  | top_name (text : String) : Before top (name text)
  | here_up : Before here up
  | here_name (text : String) : Before here (name text)
  | up_name (text : String) : Before up (name text)
  | name {first later : String} (hlt : first < later) : Before (name first) (name later)

end Part

/-- The parts of a path; a single point counts at the start only. -/
def parts (path : String) : List Part :=
  (if isAbsolute path then [.top]
    else if (pieces path).head? = some "." then [.here]
    else []) ++ ((pieces path).filter isStep).map Part.ofPiece

/-- The order of paths. -/
def Before (first later : String) : Prop :=
  List.Lex Part.Before (parts first) (parts later)

theorem Part.not_before_self (part : Part) : ¬Part.Before part part := by
  rintro ⟨⟩
  exact absurd ‹_› (lt_irrefl _)

theorem not_before_self (path : String) : ¬Before path path := by
  have hirreflexive (ps : List Part) : ¬List.Lex Part.Before ps ps := by
    induction ps with
    | nil => exact nofun
    | cons part ps ih =>
        intro hlex
        cases hlex with
        | rel hbefore => exact part.not_before_self hbefore
        | cons hrest => exact ih hrest
  exact hirreflexive (parts path)

/-- The path that leads along names from where a path leads. -/
def along (root : String) (names : List String) : String :=
  names.foldl join root

/-! ## Joining a name -/

section

variable {path root name : String} {names : List String}

theorem pieces_append_slash (front rest : String) :
    pieces (front ++ "/" ++ rest) = pieces front ++ pieces rest := by
  have hsplit : (front ++ "/" ++ rest).toList = front.toList ++ '/' :: rest.toList := by
    simp [String.toList_append]
  rw [pieces, hsplit, List.splitOn_append_cons_self, List.map_append, pieces, pieces]

theorem IsName.pieces_eq (hname : IsName name) : pieces name = [name] := by
  rw [pieces, List.splitOn_eq_singleton hname.2.1, List.map_singleton, String.ofList_toList]

theorem IsName.isStep (hname : IsName name) : isStep name = true := by
  simp [Path.isStep, hname.1, hname.2.2.1]

theorem IsName.getLast?_ne_slash (hname : IsName name) : name.toList.getLast? ≠ some '/' :=
  fun hlast => hname.2.1 (List.mem_of_getLast? hlast)

theorem join_eq (path name : String) :
    (path = "" ∧ join path name = name) ∨
      (∃ front, path = front ++ "/" ∧ join path name = front ++ "/" ++ name) ∨
      (path ≠ "" ∧ path.toList.getLast? ≠ some '/' ∧ join path name = path ++ "/" ++ name) := by
  by_cases hempty : path = ""
  · subst hempty
    exact .inl ⟨rfl, by simp [join]⟩
  by_cases hslash : path.toList.getLast? = some '/'
  · obtain ⟨front, hfront⟩ := List.getLast?_eq_some_iff.mp hslash
    have hpath : path = String.ofList front ++ "/" := by
      apply String.toList_inj.mp
      simp [hfront]
    refine .inr (.inl ⟨String.ofList front, hpath, ?_⟩)
    rw [← hpath]
    simp [join, hslash]
  · exact .inr (.inr ⟨hempty, hslash, by simp [join, hempty, hslash]⟩)

theorem exists_pieces_join (hname : IsName name) (path : String) :
    ∃ front, pieces (join path name) = front ++ [name] ∧
      front.filter isStep = (pieces path).filter isStep ∧
      (path ≠ "" → front.head? = (pieces path).head?) := by
  obtain ⟨rfl, hjoin⟩ | ⟨front, rfl, hjoin⟩ | ⟨hne, -, hjoin⟩ := join_eq path name
  · exact ⟨[], by rw [hjoin, hname.pieces_eq, List.nil_append], by decide +kernel, by simp⟩
  · -- The slash at the end leaves an empty piece, and that is no step.
    have hpieces : pieces (front ++ "/") = pieces front ++ [""] := by
      have hempty : front ++ "/" = front ++ "/" ++ "" := by simp
      rw [hempty, pieces_append_slash]
      rfl
    have hne : pieces front ≠ [] := by simp [pieces, List.splitOn_ne_nil]
    refine ⟨pieces front, by rw [hjoin, pieces_append_slash, hname.pieces_eq], ?_, fun _ => ?_⟩
    · rw [hpieces, List.filter_append]
      simp [isStep]
    · rw [hpieces, List.head?_append_of_ne_nil _ hne]
  · exact ⟨pieces path, by rw [hjoin, pieces_append_slash, hname.pieces_eq], rfl, fun _ => rfl⟩

theorem join_ne_empty (hname : IsName name) (path : String) : join path name ≠ "" := by
  obtain ⟨-, hjoin⟩ | ⟨front, -, hjoin⟩ | ⟨-, -, hjoin⟩ := join_eq path name <;> rw [hjoin]
  · exact hname.1
  · simp [hname.1]
  · simp [hname.1]

theorem getLast?_join_ne_slash (hname : IsName name) (path : String) :
    (join path name).toList.getLast? ≠ some '/' := by
  have hlast (front : String) : (front ++ name).toList.getLast? ≠ some '/' := by
    have hne : name.toList ≠ [] := mt String.toList_eq_nil_iff.mp hname.1
    rw [String.toList_append, List.getLast?_append_of_ne_nil _ hne]
    exact hname.getLast?_ne_slash
  obtain ⟨-, hjoin⟩ | ⟨front, -, hjoin⟩ | ⟨-, -, hjoin⟩ := join_eq path name <;> rw [hjoin]
  · exact hname.getLast?_ne_slash
  · exact hlast _
  · exact hlast _

theorem isAbsolute_join (hne : path ≠ "") (name : String) :
    isAbsolute (join path name) = isAbsolute path := by
  have hhead (rest : String) : isAbsolute (path ++ rest) = isAbsolute path := by
    rw [isAbsolute, isAbsolute, String.toList_append,
      List.head?_append_of_ne_nil _ (mt String.toList_eq_nil_iff.mp hne)]
  obtain ⟨hempty, -⟩ | ⟨front, rfl, hjoin⟩ | ⟨-, -, hjoin⟩ := join_eq path name
  · contradiction
  · rw [hjoin, hhead]
  · rw [hjoin, String.append_assoc, hhead]

theorem parts_join (hne : path ≠ "") (hname : IsName name) :
    parts (join path name) = parts path ++ [.name name] := by
  obtain ⟨front, hpieces, hsteps, hhead⟩ := exists_pieces_join hname path
  have hfirst : (front ++ [name]).head? = (pieces path).head? := by
    have hfront : front ≠ [] := by
      rintro rfl
      have hnone := (hhead hne).symm
      rw [List.head?_nil, List.head?_eq_none_iff] at hnone
      exact absurd hnone (by simp [pieces, List.splitOn_ne_nil])
    rw [List.head?_append_of_ne_nil _ hfront, hhead hne]
  have hlast : Part.ofPiece name = .name name := if_neg hname.2.2.2
  rw [parts, parts, isAbsolute_join hne, hpieces, hfirst, List.filter_append, hsteps]
  simp [hname.isStep, hlast]

theorem parts_along (hne : root ≠ "") (hnames : ∀ name ∈ names, IsName name) :
    parts (along root names) = parts root ++ names.map .name := by
  induction names generalizing root with
  | nil => simp [along]
  | cons name names ih =>
      obtain ⟨hname, hnames⟩ := List.forall_mem_cons.mp hnames
      rw [along, List.foldl_cons, ← along, ih (join_ne_empty hname root) hnames,
        parts_join hne hname, List.map_cons, List.append_assoc, List.singleton_append]

/-- Names with slashes between them are joined one by one. -/
theorem join_intercalate (hne : names ≠ []) (hnames : ∀ name ∈ names, IsName name) :
    join root ("/".intercalate names) = along root names := by
  induction names generalizing root with
  | nil => contradiction
  | cons first names ih =>
      obtain ⟨hfirst, hnames⟩ := List.forall_mem_cons.mp hnames
      cases names with
      | nil => rw [String.intercalate_singleton, along, List.foldl_cons, List.foldl_nil]
      | cons name names =>
          have hrest : join (join root first) ("/".intercalate (name :: names)) =
              along (join root first) (name :: names) := ih (List.cons_ne_nil _ _) hnames
          have hone : join (join root first) ("/".intercalate (name :: names)) =
              join root first ++ "/" ++ "/".intercalate (name :: names) := by
            have hopen := getLast?_join_ne_slash hfirst root
            have hsome := join_ne_empty hfirst root
            generalize join root first = path at hopen hsome
            simp [join, hopen, hsome]
          rw [along, List.foldl_cons, ← along, ← hrest, hone, String.intercalate_cons_cons]
          unfold join
          split_ifs <;> simp [String.append_assoc]

/-! ## Names and extensions -/

theorem name?_join (hname : IsName name) (path : String) : name? (join path name) = some name := by
  obtain ⟨front, hpieces, -, -⟩ := exists_pieces_join hname path
  have htrim : trimPieces (front ++ [name]) = front ++ [name] := by
    simp [trimPieces, hname.isStep]
  obtain ⟨first, rest, hfirst⟩ : ∃ first rest, front ++ [name] = first :: rest :=
    List.exists_cons_of_ne_nil (by simp)
  rw [hfirst] at hpieces htrim
  have hlast : (first :: rest).getLast? = some name := by rw [← hfirst, List.getLast?_concat]
  unfold name?
  rw [hpieces]
  dsimp only
  rw [htrim, hlast]
  split
  · next heq => exact absurd (Option.some.inj heq) hname.2.2.2
  · rfl

theorem extensionOfName?_eq_some_iff {extension : String} :
    extensionOfName? name = some extension ↔
      ∃ stem, name = stem ++ "." ++ extension ∧ stem ≠ "" ∧ '.' ∉ extension.toList := by
  unfold extensionOfName?
  dsimp only
  constructor
  · intro h
    split at h
    next c d stem hdrop =>
      have hpoint : c = '.' := by
        have hhead := List.head?_dropWhile_not (· ≠ '.') name.toList.reverse
        rw [hdrop] at hhead
        simpa using hhead
      obtain rfl := Option.some.inj h
      have hwhole := List.takeWhile_append_dropWhile (p := (· ≠ '.')) (l := name.toList.reverse)
      refine ⟨String.ofList (d :: stem).reverse, ?_, by simp, ?_⟩
      · apply String.toList_inj.mp
        rw [hdrop, hpoint] at hwhole
        have hreverse := congrArg List.reverse hwhole
        simpa [String.toList_append] using hreverse.symm
      · intro hmem
        rw [String.toList_ofList, List.mem_reverse] at hmem
        simpa using List.mem_takeWhile_imp hmem
    · contradiction
  · rintro ⟨stem, rfl, hstem, hextension⟩
    obtain ⟨last, front, hlast⟩ : ∃ last front, stem.toList.reverse = last :: front :=
      List.exists_cons_of_ne_nil (by simpa using hstem)
    have hreverse : (stem ++ "." ++ extension).toList.reverse =
        extension.toList.reverse ++ '.' :: last :: front := by
      simp [String.toList_append, hlast]
    have hbehind : ∀ c ∈ extension.toList.reverse, decide (c ≠ '.') = true := by
      intro c hc
      rw [List.mem_reverse] at hc
      exact decide_eq_true (ne_of_mem_of_not_mem hc hextension)
    rw [hreverse, List.dropWhile_append_of_pos hbehind, List.takeWhile_append_of_pos hbehind]
    simp

/-- The extension of a path is a given one, but for the case of ASCII letters. -/
def EndsIn (extension path : String) : Prop :=
  ∃ name stem suffix, name? path = some name ∧ name = stem ++ "." ++ suffix ∧ stem ≠ "" ∧
    '.' ∉ suffix.toList ∧ foldCase suffix = foldCase extension

theorem endsIn_join {extension : String} (hname : IsName name) (path : String) :
    EndsIn extension (join path name) ↔ EndsIn extension name := by
  have hself : name? name = some name := by simpa [join] using name?_join hname ""
  rw [EndsIn, EndsIn, name?_join hname, hself]

theorem hasExtension_iff {extension : String} :
    hasExtension extension path = true ↔ EndsIn extension path := by
  have hany : hasExtension extension path = true ↔
      ∃ suffix, extension? path = some suffix ∧ foldCase suffix = foldCase extension := by
    unfold hasExtension
    cases extension? path <;> simp
  simp only [hany, extension?, Option.bind_eq_some_iff, extensionOfName?_eq_some_iff]
  constructor
  · rintro ⟨suffix, ⟨name, hname, stem, hwhole, hstem, hsuffix⟩, hcase⟩
    exact ⟨name, stem, suffix, hname, hwhole, hstem, hsuffix, hcase⟩
  · rintro ⟨name, stem, suffix, hname, hwhole, hstem, hsuffix, hcase⟩
    exact ⟨suffix, ⟨name, hname, stem, hwhole, hstem, hsuffix⟩, hcase⟩

end

end ObstacleWatch.Path
