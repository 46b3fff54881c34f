import ObstacleWatch.Proofs.FileContents

/-!
# Entries at free places

A path that leads somewhere meets entries only, and no free place.  So whatever is put at a free
place, every path that led somewhere leads there still; and a path that led to the free place itself
leads to what is put there, unless that is a link, which leads on.  Making directories puts entries
at free places only, so it turns no path away either.
-/

namespace ObstacleWatch

section

variable {ε ε' α β : Type} {x : Except ε α}

theorem bind_eq_ok_iff {f : α → Except ε β} {b : β} :
    x >>= f = .ok b ↔ ∃ a, x = .ok a ∧ f a = .ok b := by
  cases x <;> simp [bind, Except.bind]

theorem mapError_eq_ok_iff {f : ε → ε'} {a : α} : x.mapError f = .ok a ↔ x = .ok a := by
  cases x <;> simp [Except.mapError]

end

/-- A path ends at the entry: it is a file or a device. -/
def FileEntry.isLeaf : FileEntry → Bool
  | .file _ | .device _ => true
  | .directory | .link _ => false

namespace FileTree

variable {t : FileTree} {location place here : Location} {entry found : FileEntry}
  {followLast : Bool} {name path : String} {steps rest : List String} {target : PathTarget}

theorem ne_nil_of_free (hfree : t.entry? location = none) : location ≠ [] := by
  rintro rfl
  have htop : t.entry? [] = some .directory := if_pos rfl
  rw [htop] at hfree
  contradiction

theorem entry?_put_of_some (hfree : t.entry? location = none)
    (hplace : t.entry? place = some found) :
    entry? (t.put location entry) place = some found := by
  have hne : place ≠ location := by
    rintro rfl
    rw [hfree] at hplace
    contradiction
  rw [entry?_put (ne_nil_of_free hfree), if_neg hne, hplace]

/-! ## One step of a way -/

/-- What comes of a name on the way, when something comes of it. -/
inductive StepsTo (t : FileTree)
    (onLink : List String → Location → Except FileError PathTarget) (followLast : Bool)
    (name : String) (rest : List String) (here : Location) (target : PathTarget) : Prop
  | enters (hentry : t.entry? (here ++ [name]) = some .directory)
      (hrest : t.descend onLink followLast rest (here ++ [name]) = .ok target)
  | reaches {entry : FileEntry} (hentry : t.entry? (here ++ [name]) = some entry)
      (hleaf : entry.isLeaf = true) (hlast : rest = [])
      (htarget : target = .found (here ++ [name]) entry)
  | stops {text : String} (hentry : t.entry? (here ++ [name]) = some (.link text))
      (hitself : rest = [] ∧ followLast = false)
      (htarget : target = .found (here ++ [name]) (.link text))
  | follows {text : String} (hentry : t.entry? (here ++ [name]) = some (.link text))
      (hitself : ¬(rest = [] ∧ followLast = false)) (hempty : ¬text.isEmpty = true)
      (hlink : onLink (Path.steps text ++ rest) (if Path.isAbsolute text then [] else here) =
        .ok target)
  | isFree (hentry : t.entry? (here ++ [name]) = none) (hlast : rest = [])
      (htarget : target = .vacant (here ++ [name]))

section

variable {onLink onLink' : List String → Location → Except FileError PathTarget}

theorem descend_cons_eq_ok_iff (hstay : name ≠ ".") (hup : name ≠ "..") :
    t.descend onLink followLast (name :: rest) here = .ok target ↔
      ¬longestName < name.utf8ByteSize ∧
        t.StepsTo onLink followLast name rest here target := by
  rw [descend.eq_4 _ _ _ _ _ _ hstay hup]
  by_cases hlong : longestName < name.utf8ByteSize
  · simp [hlong]
  rw [if_neg hlong]
  simp only [hlong, not_false_eq_true, true_and]
  constructor
  · intro h
    cases hentry : t.entry? (here ++ [name]) with
    | none =>
        rw [hentry] at h
        by_cases hlast : rest = []
        · exact .isFree hentry hlast (by simpa [hlast] using h.symm)
        · simp [hlast] at h
    | some entry =>
        rw [hentry] at h
        cases entry with
        | directory => exact .enters hentry h
        | file octets =>
            by_cases hlast : rest = []
            · exact .reaches hentry rfl hlast (by simpa [hlast] using h.symm)
            · simp [hlast] at h
        | device device =>
            by_cases hlast : rest = []
            · exact .reaches hentry rfl hlast (by simpa [hlast] using h.symm)
            · simp [hlast] at h
        | link text =>
            by_cases hitself : rest = [] ∧ followLast = false
            · exact .stops hentry hitself (by simpa [hitself] using h.symm)
            by_cases hempty : text.isEmpty = true
            · simp [hitself, hempty] at h
            · exact .follows hentry hitself hempty
                (by simpa only [if_neg hitself, if_neg hempty] using h)
  · intro h
    cases h with
    | enters hentry hrest => simpa only [hentry] using hrest
    | @reaches entry hentry hleaf hlast htarget =>
        rw [hentry]
        cases entry <;> first | contradiction | simp [hlast, htarget]
    | stops hentry hitself htarget => simp [hentry, hitself, htarget]
    | follows hentry hitself hempty hlink =>
        simpa only [hentry, if_neg hitself, if_neg hempty] using hlink
    | isFree hentry hlast htarget => simp [hentry, hlast, htarget]

/-! ## The way of a path -/

theorem descend_put_of_found (hfree : t.entry? location = none)
    (hlink : ∀ steps here, onLink steps here = .ok (.found place found) →
      onLink' steps here = .ok (.found place found))
    (hfound : t.descend onLink followLast steps here = .ok (.found place found)) :
    (t.put location entry).descend onLink' followLast steps here = .ok (.found place found) := by
  induction steps generalizing here with
  | nil => exact hfound
  | cons name rest ih =>
      by_cases hstay : name = "."
      · subst hstay
        exact ih hfound
      by_cases hup : name = ".."
      · subst hup
        exact ih hfound
      -- The way meets an entry at every name, and no entry has changed.
      rw [descend_cons_eq_ok_iff hstay hup] at hfound ⊢
      refine ⟨hfound.1, ?_⟩
      cases hfound.2 with
      | enters hentry hrest => exact .enters (entry?_put_of_some hfree hentry) (ih hrest)
      | reaches hentry hleaf hlast htarget =>
          exact .reaches (entry?_put_of_some hfree hentry) hleaf hlast htarget
      | stops hentry hitself htarget =>
          exact .stops (entry?_put_of_some hfree hentry) hitself htarget
      | follows hentry hitself hempty htarget =>
          exact .follows (entry?_put_of_some hfree hentry) hitself hempty (hlink _ _ htarget)
      | isFree _ _ htarget => cases htarget

theorem descend_put_of_vacant (hleaf : ∀ text, entry ≠ .link text)
    (hfree : t.entry? location = none)
    (hlink : ∀ steps here, onLink steps here = .ok (.vacant location) →
      onLink' steps here = .ok (.found location entry))
    (hvacant : t.descend onLink followLast steps here = .ok (.vacant location)) :
    (t.put location entry).descend onLink' true steps here = .ok (.found location entry) := by
  induction steps generalizing here with
  | nil => cases hvacant
  | cons name rest ih =>
      by_cases hstay : name = "."
      · subst hstay
        exact ih hvacant
      by_cases hup : name = ".."
      · subst hup
        exact ih hvacant
      rw [descend_cons_eq_ok_iff hstay hup] at hvacant ⊢
      refine ⟨hvacant.1, ?_⟩
      -- Up to the last name there is an entry; at the last one there is none, and now the new one.
      cases hvacant.2 with
      | enters hentry hrest => exact .enters (entry?_put_of_some hfree hentry) (ih hrest)
      | reaches _ _ _ htarget => cases htarget
      | stops _ _ htarget => cases htarget
      | follows hentry hitself hempty htarget =>
          exact .follows (entry?_put_of_some hfree hentry) (by simp) hempty (hlink _ _ htarget)
      | isFree hentry hlast htarget =>
          obtain rfl := PathTarget.vacant.inj htarget
          have hnew : entry? (t.put (here ++ [name]) entry) (here ++ [name]) = some entry := by
            rw [entry?_put (ne_nil_of_free hfree), if_pos rfl]
          subst hlast
          cases entry with
          | directory => exact .enters hnew rfl
          | link text => exact absurd rfl (hleaf text)
          | file octets => exact .reaches hnew rfl rfl rfl
          | device device => exact .reaches hnew rfl rfl rfl

end

theorem travel_put_of_found (hfree : t.entry? location = none) (links : Nat)
    (hfound : t.travel followLast links steps here = .ok (.found place found)) :
    (t.put location entry).travel followLast links steps here = .ok (.found place found) := by
  induction links generalizing steps here with
  | zero =>
      refine descend_put_of_found hfree (fun _ _ hnever => ?_) hfound
      contradiction
  | succ links ih => exact descend_put_of_found hfree (fun _ _ => ih) hfound

theorem travel_put_of_vacant (hleaf : ∀ text, entry ≠ .link text)
    (hfree : t.entry? location = none) (links : Nat)
    (hvacant : t.travel followLast links steps here = .ok (.vacant location)) :
    (t.put location entry).travel true links steps here = .ok (.found location entry) := by
  induction links generalizing steps here with
  | zero =>
      refine descend_put_of_vacant hleaf hfree (fun _ _ hnever => ?_) hvacant
      contradiction
  | succ links ih => exact descend_put_of_vacant hleaf hfree (fun _ _ => ih) hvacant

theorem resolve_eq_ok_iff :
    t.resolve path followLast = .ok target ↔
      ¬path.toList.contains '\x00' = true ∧ ¬path.isEmpty = true ∧
        ¬longestPath < path.utf8ByteSize ∧
        t.travel followLast mostLinks (Path.steps path)
          (if Path.isAbsolute path then [] else t.here) = .ok target := by
  unfold resolve
  split_ifs with hnul hempty hlong <;> simp_all

/-- What led somewhere leads there still. -/
theorem resolve_put_of_found (hfree : t.entry? location = none)
    (hfound : t.resolve path followLast = .ok (.found place found)) :
    (t.put location entry).resolve path followLast = .ok (.found place found) := by
  rw [resolve_eq_ok_iff] at hfound ⊢
  obtain ⟨hnul, hempty, hlong, htravel⟩ := hfound
  exact ⟨hnul, hempty, hlong, travel_put_of_found hfree _ htravel⟩

/-- What led to the free place leads to the new entry. -/
theorem resolve_put_of_vacant (hleaf : ∀ text, entry ≠ .link text)
    (hfree : t.entry? location = none)
    (hvacant : t.resolve path followLast = .ok (.vacant location)) :
    (t.put location entry).resolve path true = .ok (.found location entry) := by
  rw [resolve_eq_ok_iff] at hvacant ⊢
  obtain ⟨hnul, hempty, hlong, htravel⟩ := hvacant
  exact ⟨hnul, hempty, hlong, travel_put_of_vacant hleaf hfree _ htravel⟩

theorem find?_eq_some_iff :
    t.find? path = some (place, found) ↔ t.resolve path true = .ok (.found place found) := by
  unfold find?
  rcases t.resolve path true with e | ⟨place', entry'⟩ | vacant <;> simp

theorem find?_put_of_some (hfree : t.entry? location = none)
    (hfound : t.find? path = some (place, found)) :
    (t.put location entry).find? path = some (place, found) :=
  find?_eq_some_iff.mpr (resolve_put_of_found hfree (find?_eq_some_iff.mp hfound))

theorem isDirectory_iff :
    t.isDirectory path = true ↔ ∃ place, t.find? path = some (place, .directory) := by
  unfold isDirectory
  rcases t.find? path with _ | ⟨place, octets | _ | text | device⟩ <;> simp

theorem isDirectory_put (hfree : t.entry? location = none)
    (hdirectory : t.isDirectory path = true) :
    (t.put location entry).isDirectory path = true := by
  obtain ⟨place, hfound⟩ := isDirectory_iff.mp hdirectory
  exact isDirectory_iff.mpr ⟨place, find?_put_of_some hfree hfound⟩

/-! ## Where a way ends -/

/-- The tree has the entry that is told, or nothing at the place that is told to be free.  A
directory may be the one where a way starts. -/
def Tells (t : FileTree) : PathTarget → Prop
  | .found place entry => entry = .directory ∨ t.entry? place = some entry
  | .vacant place => t.entry? place = none

theorem tells_of_descend {onLink : List String → Location → Except FileError PathTarget}
    (hlink : ∀ steps here, onLink steps here = .ok target → t.Tells target)
    (hend : t.descend onLink followLast steps here = .ok target) : t.Tells target := by
  induction steps generalizing here with
  | nil =>
      cases hend
      exact .inl rfl
  | cons name rest ih =>
      by_cases hstay : name = "."
      · subst hstay
        exact ih hend
      by_cases hup : name = ".."
      · subst hup
        exact ih hend
      cases ((descend_cons_eq_ok_iff hstay hup).mp hend).2 with
      | enters _ hrest => exact ih hrest
      | reaches hentry _ _ htarget => exact htarget ▸ .inr hentry
      | stops hentry _ htarget => exact htarget ▸ .inr hentry
      | follows _ _ _ hend => exact hlink _ _ hend
      | isFree hentry _ htarget => exact htarget ▸ hentry

theorem tells_of_resolve (hend : t.resolve path followLast = .ok target) : t.Tells target := by
  have htravel (links : Nat) (steps : List String) (here : Location)
      (hend : t.travel followLast links steps here = .ok target) : t.Tells target := by
    induction links generalizing steps here with
    | zero =>
        refine tells_of_descend (fun _ _ hnever => ?_) hend
        contradiction
    | succ links ih => exact tells_of_descend ih hend
  exact htravel _ _ _ (resolve_eq_ok_iff.mp hend).2.2.2

/-! ## Making directories -/

/-- The second tree has directories at some places that are free in the first. -/
inductive GainsDirectories : FileTree → FileTree → Prop
  | refl (t : FileTree) : GainsDirectories t t
  | gain {t t' : FileTree} {location : Location} (hfree : t.entry? location = none)
      (hrest : GainsDirectories (t.put location .directory) t') : GainsDirectories t t'

namespace GainsDirectories

variable {t' t'' : FileTree}

theorem trans (hfirst : GainsDirectories t t') (hlater : GainsDirectories t' t'') :
    GainsDirectories t t'' := by
  induction hfirst with
  | refl => exact hlater
  | gain hfree _ ih => exact .gain hfree (ih hlater)

/-- What is at a place was there before, or it is a new directory. -/
theorem entry?_cases (hgains : GainsDirectories t t') (place : Location) :
    t'.entry? place = t.entry? place ∨ t'.entry? place = some .directory := by
  induction hgains with
  | refl => exact .inl rfl
  | @gain t t' location hfree _ ih =>
      rw [entry?_put (ne_nil_of_free hfree)] at ih
      by_cases hplace : place = location
      · rw [if_pos hplace, or_self] at ih
        exact .inr ih
      · rwa [if_neg hplace] at ih

end GainsDirectories

theorem makeDirectory_eq_ok {t' : FileTree} (hmade : t.makeDirectory path = .ok t') :
    ∃ location, t.resolve path false = .ok (.vacant location) ∧
      t' = t.put location .directory := by
  obtain ⟨target, hend, hmade⟩ := bind_eq_ok_iff.mp hmade
  cases target with
  | found place entry => contradiction
  | vacant location => exact ⟨location, hend, (Except.ok.inj hmade).symm⟩

theorem gainsDirectories_of_makeDirectory {t' : FileTree} (hmade : t.makeDirectory path = .ok t') :
    GainsDirectories t t' ∧ t'.isDirectory path = true := by
  obtain ⟨location, hvacant, rfl⟩ := makeDirectory_eq_ok hmade
  have hfree : t.entry? location = none := tells_of_resolve hvacant
  have hfound : (t.put location .directory).resolve path true = .ok (.found location .directory) :=
    resolve_put_of_vacant nofun hfree hvacant
  exact ⟨.gain hfree (.refl _), isDirectory_iff.mpr ⟨location, find?_eq_some_iff.mpr hfound⟩⟩

theorem makeDirectoriesWithin_cases {t' : FileTree} {fuel : Nat} (hempty : ¬path.isEmpty = true)
    (hmade : makeDirectoriesWithin fuel t path = .ok t') :
    t.makeDirectory path = .ok t' ∨ (t.isDirectory path = true ∧ t' = t) ∨
      ∃ below parent middle, fuel = below + 1 ∧
        makeDirectoriesWithin below t parent = .ok middle ∧
          (middle.makeDirectory path = .ok t' ∨ middle.isDirectory path = true ∧ t' = middle) := by
  unfold makeDirectoriesWithin at hmade
  rw [if_neg hempty] at hmade
  have hends {middle : FileTree} {e : FileError}
      (hend : (if middle.isDirectory path = true then .ok middle else .error e) =
        (.ok t' : Except FileError FileTree)) :
      middle.isDirectory path = true ∧ t' = middle := by
    split at hend
    · exact ⟨‹_›, (Except.ok.inj hend).symm⟩
    · contradiction
  split at hmade
  · exact .inl (hmade ▸ ‹_›)
  · split at hmade
    next below parent _ =>
      refine .inr (.inr ⟨below, parent, ?_⟩)
      obtain ⟨middle, hmiddle, hmade⟩ := bind_eq_ok_iff.mp hmade
      refine ⟨middle, rfl, hmiddle, ?_⟩
      split at hmade
      · exact .inl (hmade ▸ ‹_›)
      · exact .inr (hends hmade)
    · contradiction
  · exact .inr (.inl (hends hmade))

/-- What is made are new directories, and behind it the path leads to one. -/
theorem gainsDirectories_of_makeDirectoriesWithin {t' : FileTree} {fuel : Nat}
    (hmade : makeDirectoriesWithin fuel t path = .ok t') :
    GainsDirectories t t' ∧ (path.isEmpty = true ∨ t'.isDirectory path = true) := by
  induction fuel using Nat.strongRecOn generalizing t t' path with
  | ind fuel ih =>
    by_cases hempty : path.isEmpty = true
    · unfold makeDirectoriesWithin at hmade
      rw [if_pos hempty] at hmade
      cases hmade
      exact ⟨.refl t, .inl hempty⟩
    obtain hmade | ⟨hdirectory, rfl⟩ |
        ⟨below, parent, middle, rfl, habove, hmade | ⟨hdirectory, rfl⟩⟩ :=
      makeDirectoriesWithin_cases hempty hmade
    · exact (gainsDirectories_of_makeDirectory hmade).imp_right .inr
    · exact ⟨.refl t', .inr hdirectory⟩
    · have hlast := gainsDirectories_of_makeDirectory hmade
      exact ⟨(ih _ below.lt_succ_self habove).1.trans hlast.1, .inr hlast.2⟩
    · exact ⟨(ih _ below.lt_succ_self habove).1, .inr hdirectory⟩

/-! ## What is there already -/

theorem descend_itself {onLink onLink' : List String → Location → Except FileError PathTarget}
    (hlink : ∀ steps here, onLink steps here = .ok (.found place found) →
      ∃ place' found', onLink' steps here = .ok (.found place' found'))
    (hfound : t.descend onLink true steps here = .ok (.found place found)) :
    ∃ place' found', t.descend onLink' false steps here = .ok (.found place' found') := by
  induction steps generalizing here with
  | nil => exact ⟨_, _, rfl⟩
  | cons name rest ih =>
      by_cases hstay : name = "."
      · subst hstay
        exact ih hfound
      by_cases hup : name = ".."
      · subst hup
        exact ih hfound
      obtain ⟨hshort, hstep⟩ := (descend_cons_eq_ok_iff hstay hup).mp hfound
      have hto (place' : Location) (found' : FileEntry)
          (hstep' : t.StepsTo onLink' false name rest here (.found place' found')) :
          ∃ place' found', t.descend onLink' false (name :: rest) here =
            .ok (.found place' found') :=
        ⟨place', found', (descend_cons_eq_ok_iff hstay hup).mpr ⟨hshort, hstep'⟩⟩
      cases hstep with
      | enters hentry hrest =>
          obtain ⟨place', found', hrest'⟩ := ih hrest
          exact hto _ _ (.enters hentry hrest')
      | reaches hentry hleaf hlast htarget => exact hto _ _ (.reaches hentry hleaf hlast htarget)
      | stops hentry hitself _ => exact absurd hitself.2 (by simp)
      | @follows text hentry hitself hempty hend =>
          by_cases hlast : rest = []
          · exact hto _ _ (.stops hentry ⟨hlast, rfl⟩ rfl)
          · obtain ⟨place', found', hend'⟩ := hlink _ _ hend
            exact hto _ _ (.follows hentry (by simp [hlast]) hempty hend')
      | isFree _ _ htarget => cases htarget

/-- What is found through all links has something under its name. -/
theorem resolve_itself (hfound : t.resolve path true = .ok (.found place found)) :
    ∃ place' found', t.resolve path false = .ok (.found place' found') := by
  simp only [resolve_eq_ok_iff] at hfound ⊢
  obtain ⟨hnul, hempty, hlong, htravel⟩ := hfound
  have htravels (links : Nat) (steps : List String) (here : Location)
      (hfound : t.travel true links steps here = .ok (.found place found)) :
      ∃ place' found', t.travel false links steps here = .ok (.found place' found') := by
    induction links generalizing steps here with
    | zero =>
        refine descend_itself (fun _ _ hnever => ?_) hfound
        contradiction
    | succ links ih => exact descend_itself ih hfound
  obtain ⟨place', found', hend⟩ := htravels _ _ _ htravel
  exact ⟨place', found', hnul, hempty, hlong, hend⟩

/-- Nothing is made where a directory is. -/
theorem makeDirectories_of_isDirectory (hdirectory : t.isDirectory path = true) :
    t.makeDirectories path = .ok t := by
  obtain ⟨place, hfound⟩ := isDirectory_iff.mp hdirectory
  obtain ⟨place', found', hitself⟩ := resolve_itself (find?_eq_some_iff.mp hfound)
  have hexists : t.makeDirectory path = .error .alreadyExists := by
    simp [makeDirectory, hitself, bind, Except.bind, throw, throwThe, MonadExceptOf.throw]
  unfold makeDirectories makeDirectoriesWithin
  simp [hexists, hdirectory]

/-! ## Opening a file -/

/-- A file that is opened was there, or it is new and empty. -/
theorem openForAppend_eq_ok {t' : FileTree} (hopened : t.openForAppend path = .ok (t', location)) :
    (path.toList.getLast? == some '/') = false ∧
      ((∃ entry : FileEntry, entry.isLeaf = true ∧
          t.resolve path true = .ok (.found location entry) ∧ t' = t) ∨
        t.resolve path true = .ok (.vacant location) ∧ t' = t.put location (.file [])) := by
  unfold openForAppend at hopened
  cases hslash : path.toList.getLast? == some '/' with
  | true => simp [hslash, bind, Except.bind, throw, throwThe, MonadExceptOf.throw] at hopened
  | false =>
      refine ⟨rfl, ?_⟩
      cases hend : t.resolve path true with
      | error e => simp [hslash, hend, bind, Except.bind] at hopened
      | ok target =>
          simp only [hslash, hend, bind, Except.bind, pure, Except.pure, Bool.false_eq_true,
            if_false] at hopened
          rcases target with ⟨place, octets | _ | text | device⟩ | place
          case found.directory | found.link => contradiction
          all_goals
            obtain ⟨rfl, rfl⟩ := Prod.mk.inj (Except.ok.inj hopened)
          case found.file => exact .inl ⟨_, rfl, rfl, rfl⟩
          case found.device => exact .inl ⟨_, rfl, rfl, rfl⟩
          case vacant => exact .inr ⟨rfl, rfl⟩

end FileTree

end ObstacleWatch
