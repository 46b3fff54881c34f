import Mathlib.Data.List.Forall2
import Mathlib.Data.List.Nodup
import ObstacleWatch.Json.Record

/-!
# Spellings of a record

A record with fixed field names can be written in many ways: its members in any order or their
values alone in the order of the names, a usual value or nothing at all, and, where the format lets
other members stand, any number of those.  Each change of this kind is one step here, and a reader
that takes the usual values for what they are reads the same on both sides of a step.  Only two
things are refused whatever the values are: a name that comes twice, and a member that the format
does not know.
-/

namespace ObstacleWatch

/-! ## Names that come once at most -/

section

variable {κ β : Type} [BEq κ] {name : κ} {m : κ × β} {members members' : List (κ × β)}

theorem unique?_perm (hperm : members.Perm members') :
    unique? name members = unique? name members' := by
  have hnamed := hperm.filter fun m => m.1 == name
  unfold unique?
  generalize members.filter (fun m => m.1 == name) = named at hnamed ⊢
  generalize members'.filter (fun m => m.1 == name) = named' at hnamed ⊢
  match named, named' with
  | [], _ => rw [List.nil_perm.mp hnamed]
  | [m], _ => rw [List.singleton_perm.mp hnamed]
  | m₁ :: m₂ :: rest, named' =>
      match named', hnamed.length_eq with
      | _ :: _ :: _, _ => rfl

theorem unique?_eq_none_iff :
    unique? name members = none ↔ 2 ≤ members.countP fun m => m.1 == name := by
  rw [List.countP_eq_length_filter, unique?]
  generalize members.filter (fun m => m.1 == name) = named
  match named with
  | [] => simp
  | [m] => simp
  | _ :: _ :: _ => simp

variable [LawfulBEq κ]

theorem unique?_of_missing (hmissing : ∀ m ∈ members, m.1 ≠ name) :
    unique? name members = some none := by
  have hnil : members.filter (fun m => m.1 == name) = [] := by simpa using hmissing
  rw [unique?, hnil]

theorem unique?_cons_of_ne (hname : m.1 ≠ name) :
    unique? name (m :: members) = unique? name members := by
  rw [unique?, List.filter_cons_of_neg (by simpa using hname)]
  rfl

theorem unique?_cons_of_missing (hmissing : ∀ m' ∈ members, m'.1 ≠ m.1) :
    unique? m.1 (m :: members) = some (some m.2) := by
  have hnil : members.filter (fun m' => m'.1 == m.1) = [] := by simpa using hmissing
  rw [unique?, List.filter_cons_of_pos (by simp), hnil]

theorem unique?_cons_of_mem {m' : κ × β} (hmem : m' ∈ members) (hname : m'.1 = m.1) :
    unique? m.1 (m :: members) = none := by
  have hnamed : m' ∈ members.filter fun m' => m'.1 == m.1 := by simp [hmem, hname]
  rw [unique?, List.filter_cons_of_pos (by simp)]
  cases hrest : members.filter fun m' => m'.1 == m.1 with
  | nil => simp [hrest] at hnamed
  | cons => rfl

theorem eq_some_of_unique?_cons {value : Option β}
    (hunique : unique? m.1 (m :: members) = some value) : value = some m.2 := by
  by_cases hmissing : ∀ m' ∈ members, m'.1 ≠ m.1
  · rw [unique?_cons_of_missing hmissing] at hunique
    exact (Option.some.inj hunique).symm
  · push Not at hmissing
    obtain ⟨m', hmem, hsame⟩ := hmissing
    rw [unique?_cons_of_mem hmem hsame] at hunique
    contradiction

theorem eq_some_of_unique? {value : Option β} (hmem : m ∈ members)
    (hunique : unique? m.1 members = some value) : value = some m.2 := by
  obtain ⟨before, after, rfl⟩ := List.append_of_mem hmem
  rw [unique?_perm List.perm_middle] at hunique
  exact eq_some_of_unique?_cons hunique

theorem lookup_of_unique? {value : Option β} (hunique : unique? name members = some value) :
    members.lookup name = value := by
  induction members with
  | nil => simpa [unique?] using hunique
  | cons m rest ih =>
      by_cases hname : m.1 = name
      · subst hname
        rw [eq_some_of_unique?_cons hunique, List.lookup_cons, BEq.rfl]
      · rw [unique?_cons_of_ne hname] at hunique
        have hother : (name == m.1) = false := by simpa using Ne.symm hname
        rw [List.lookup_cons, hother]
        exact ih hunique

end

/-! ## Reading all names -/

section

variable {α β : Type} {f g : α → Option β} {l : List α} {l' : List β}

theorem mapM_eq_some_iff : l.mapM f = some l' ↔ List.Forall₂ (fun a b => f a = some b) l l' := by
  induction l generalizing l' with
  | nil => cases l' <;> simp
  | cons a rest ih =>
      rw [List.mapM_cons]
      cases l' <;> cases hfirst : f a <;> cases hrest : rest.mapM f <;> simp_all

theorem mapM_eq_none_iff : l.mapM f = none ↔ ∃ a ∈ l, f a = none := by
  induction l with
  | nil => simp
  | cons a rest ih =>
      rw [List.mapM_cons, List.exists_mem_cons_iff, ← ih]
      cases f a <;> cases rest.mapM f <;> simp

theorem mapM_congr (heq : ∀ a ∈ l, f a = g a) : l.mapM f = l.mapM g := by
  induction l with
  | nil => rfl
  | cons a rest ih =>
      rw [List.forall_mem_cons] at heq
      rw [List.mapM_cons, List.mapM_cons, heq.1, ih heq.2]

/-- A change at one element changes the result in one place. -/
theorem mapM_set [BEq α] [LawfulBEq α] {a : α} {b : β} (hnodup : l.Nodup) (hmem : a ∈ l)
    (hvalue : f a ≠ none) (hchanged : g a = some b) (hother : ∀ x ∈ l, x ≠ a → g x = f x) :
    l.mapM g = (l.mapM f).map fun values => values.set (l.idxOf a) b := by
  induction l with
  | nil => contradiction
  | cons x rest ih =>
      obtain ⟨hnotMem, hnodup⟩ := List.nodup_cons.mp hnodup
      rw [List.forall_mem_cons] at hother
      rw [List.mapM_cons, List.mapM_cons]
      by_cases hxa : x = a
      · subst hxa
        have hrest : rest.mapM g = rest.mapM f :=
          mapM_congr fun y hy => hother.2 y hy fun hyx => hnotMem (hyx ▸ hy)
        obtain ⟨b₀, hb₀⟩ := Option.ne_none_iff_exists'.mp hvalue
        rw [hchanged, hb₀, hrest, List.idxOf_cons_self]
        cases rest.mapM f <;> rfl
      · have hmem : a ∈ rest := List.mem_of_ne_of_mem (Ne.symm hxa) hmem
        rw [hother.1 hxa, ih hnodup hmem hother.2, List.idxOf_cons_ne _ (by simpa using hxa)]
        cases f x <;> cases rest.mapM f <;> rfl

end

namespace Json.Value

section

variable {names : List String} {strict : Bool} {name : String} {v : Value}
  {members members' : List (Option String × Value)} {values : List Value}

/-- A format lets a member stand if its name is a text and, in a strict format, one of the names of
the fields. -/
def IsAdmitted (names : List String) (strict : Bool) (m : Option String × Value) : Prop :=
  ∃ name, m.1 = some name ∧ (strict = true → name ∈ names)

theorem isAdmitted_iff (m : Option String × Value) :
    IsAdmitted names strict m ↔
      (match m.1 with
        | none => false
        | some name => !strict || names.contains name) = true := by
  obtain ⟨_ | name, v⟩ := m <;> cases strict <;> simp [IsAdmitted]

theorem fields?_object (hadmitted : ∀ m ∈ members, IsAdmitted names strict m) :
    (Value.object members).fields? names strict =
      names.mapM fun name => unique? (some name) members := by
  simp only [isAdmitted_iff] at hadmitted
  rw [fields?]
  exact if_pos (List.all_eq_true.mpr hadmitted)

theorem fields?_of_not_admitted (hstrange : ¬∀ m ∈ members, IsAdmitted names strict m) :
    (Value.object members).fields? names strict = none := by
  simp only [isAdmitted_iff] at hstrange
  rw [fields?]
  exact if_neg fun hall => hstrange (List.all_eq_true.mp hall)

theorem isAdmitted_of_fields? {fields : List (Option Value)}
    (hfields : (Value.object members).fields? names strict = some fields) :
    ∀ m ∈ members, IsAdmitted names strict m := by
  by_contra hstrange
  rw [fields?_of_not_admitted hstrange] at hfields
  contradiction

theorem fields?_of_repeated (hname : name ∈ names)
    (hrepeated : 2 ≤ members.countP fun m => m.1 == some name) :
    (Value.object members).fields? names strict = none := by
  by_cases hadmitted : ∀ m ∈ members, IsAdmitted names strict m
  · rw [fields?_object hadmitted]
    exact mapM_eq_none_iff.mpr ⟨name, hname, unique?_eq_none_iff.mpr hrepeated⟩
  · exact fields?_of_not_admitted hadmitted

/-- A member with a name of its own only fills its place among the fields. -/
theorem fields?_cons_of_missing (hnodup : names.Nodup) (hname : name ∈ names)
    (hmissing : ∀ m ∈ members, m.1 ≠ some name) :
    (Value.object ((some name, v) :: members)).fields? names strict =
      ((Value.object members).fields? names strict).map fun fields =>
        fields.set (names.idxOf name) (some v) := by
  by_cases hadmitted : ∀ m ∈ members, IsAdmitted names strict m
  · have hadmitted' : ∀ m ∈ (some name, v) :: members, IsAdmitted names strict m :=
      List.forall_mem_cons.mpr ⟨⟨name, rfl, fun _ => hname⟩, hadmitted⟩
    rw [fields?_object hadmitted', fields?_object hadmitted]
    refine mapM_set hnodup hname ?_ (unique?_cons_of_missing hmissing) ?_
    · rw [unique?_of_missing hmissing]
      exact Option.some_ne_none none
    · intro other _ hother
      exact unique?_cons_of_ne fun hsame => hother (Option.some.inj hsame).symm
  · have hadmitted' : ¬∀ m ∈ (some name, v) :: members, IsAdmitted names strict m :=
      fun hall => hadmitted (List.forall_mem_cons.mp hall).2
    rw [fields?_of_not_admitted hadmitted, fields?_of_not_admitted hadmitted']
    rfl

theorem fields?_set_none {fields : List (Option Value)} (hnodup : names.Nodup)
    (hname : name ∈ names) (hmissing : ∀ m ∈ members, m.1 ≠ some name)
    (hfields : (Value.object members).fields? names strict = some fields) :
    fields.set (names.idxOf name) none = fields := by
  have hadmitted := isAdmitted_of_fields? hfields
  have hnone := unique?_of_missing hmissing
  have hvalue : unique? (some name) members ≠ none := hnone ▸ Option.some_ne_none none
  have hset := mapM_set (f := fun name => unique? (some name) members) hnodup hname hvalue hnone
    fun _ _ _ => rfl
  rw [fields?_object hadmitted] at hfields
  rw [hfields, Option.map_some, Option.some_inj] at hset
  exact hset.symm

theorem fields?_cons_of_notMem (hname : name ∉ names) :
    (Value.object ((some name, v) :: members)).fields? names false =
      (Value.object members).fields? names false := by
  by_cases hadmitted : ∀ m ∈ members, IsAdmitted names false m
  · have hadmitted' : ∀ m ∈ (some name, v) :: members, IsAdmitted names false m :=
      List.forall_mem_cons.mpr ⟨⟨name, rfl, nofun⟩, hadmitted⟩
    rw [fields?_object hadmitted', fields?_object hadmitted]
    refine mapM_congr fun other hother => unique?_cons_of_ne fun hsame => ?_
    exact hname (Option.some.inj hsame ▸ hother)
  · have hadmitted' : ¬∀ m ∈ (some name, v) :: members, IsAdmitted names false m :=
      fun hall => hadmitted (List.forall_mem_cons.mp hall).2
    rw [fields?_of_not_admitted hadmitted, fields?_of_not_admitted hadmitted']

theorem fields?_perm (hperm : members.Perm members') :
    (Value.object members).fields? names strict =
      (Value.object members').fields? names strict := by
  have hunique : (fun name => unique? (some name) members) =
      fun name => unique? (some name) members' := funext fun _ => unique?_perm hperm
  simp only [fields?, hperm.all_eq, hunique]

theorem fields?_array (hlength : values.length = names.length) :
    (Value.array values).fields? names strict = some (values.map some) := by
  rw [fields?, if_pos (Nat.le_of_eq hlength), hlength, Nat.sub_self, List.replicate_zero,
    List.append_nil]

theorem mapM_unique?_zip (hnodup : names.Nodup) (hlength : values.length = names.length) :
    (names.mapM fun name => unique? (some name) ((names.map some).zip values)) =
      some (values.map some) := by
  induction names generalizing values with
  | nil =>
      rw [List.length_nil, List.length_eq_zero_iff] at hlength
      rw [hlength]
      rfl
  | cons name rest ih =>
      obtain ⟨hnotMem, hnodup⟩ := List.nodup_cons.mp hnodup
      match values, hlength with
      | v :: values, hlength =>
          have hmissing : ∀ m ∈ (rest.map some).zip values, m.1 ≠ some name := by
            intro m hmem hsame
            have hfirst := (List.of_mem_zip hmem).1
            rw [hsame] at hfirst
            obtain ⟨other, hother, hsame⟩ := List.mem_map.mp hfirst
            exact hnotMem (Option.some.inj hsame ▸ hother)
          have hrest : (rest.mapM fun other =>
              unique? (some other) ((some name, v) :: (rest.map some).zip values)) =
                some (values.map some) := by
            rw [← ih hnodup (Nat.succ.inj hlength)]
            refine mapM_congr fun other hother => unique?_cons_of_ne fun hsame => ?_
            exact hnotMem (Option.some.inj hsame ▸ hother)
          rw [List.map_cons, List.zip_cons_cons, List.mapM_cons, hrest,
            unique?_cons_of_missing (m := (some name, v)) hmissing]
          rfl

theorem fields?_zip (hnodup : names.Nodup) (hlength : values.length = names.length) :
    (Value.object ((names.map some).zip values)).fields? names strict =
      some (values.map some) := by
  rw [fields?_object, mapM_unique?_zip hnodup hlength]
  intro m hmem
  obtain ⟨name, hname, hsame⟩ := List.mem_map.mp (List.of_mem_zip hmem).1
  exact ⟨name, hsame.symm, fun _ => hname⟩

theorem length_of_fields? {fields : List (Option Value)}
    (hfields : (Value.object members).fields? names strict = some fields) :
    fields.length = names.length := by
  rw [fields?_object (isAdmitted_of_fields? hfields), mapM_eq_some_iff] at hfields
  exact hfields.length_eq.symm

end

end Json.Value

/-! ## Formats -/

/-- How a record is written: the names of its fields, whether other members are refused, the values
that say as much as a missing field, and what is made of the values of all fields. -/
structure RecordFormat (α : Type) where
  names : List String
  strict : Bool
  IsUsual : String → Json.Value → Prop
  read : List (Option Json.Value) → Option α
  nodup : names.Nodup
  mem_of_isUsual : ∀ {name v}, IsUsual name v → name ∈ names
  read_usual : ∀ {name v}, IsUsual name v → ∀ fields : List (Option Json.Value),
    fields.length = names.length →
    read (fields.set (names.idxOf name) (some v)) = read (fields.set (names.idxOf name) none)

namespace RecordFormat

variable {α : Type} (format : RecordFormat α)

def ofJson? (v : Json.Value) : Option α :=
  (v.fields? format.names format.strict).bind format.read

/-- One change in the spelling of a record: its members in another order, its values alone in the
order of the names, a usual value for a field that is missing, or a member that is passed over. -/
inductive Respells : Json.Value → Json.Value → Prop
  | permute {members members' : List (Option String × Json.Value)}
      (hperm : members.Perm members') : Respells (.object members) (.object members')
  | inOrder {values : List Json.Value} (hlength : values.length = format.names.length) :
      Respells (.object ((format.names.map some).zip values)) (.array values)
  | usual {name : String} {v : Json.Value} {members : List (Option String × Json.Value)}
      (husual : format.IsUsual name v) (hmissing : ∀ m ∈ members, m.1 ≠ some name) :
      Respells (.object members) (.object ((some name, v) :: members))
  | unknown {name : String} {v : Json.Value} {members : List (Option String × Json.Value)}
      (hstrict : format.strict = false) (hname : name ∉ format.names) :
      Respells (.object members) (.object ((some name, v) :: members))

variable {format}

theorem ofJson?_eq_of_respells {v v' : Json.Value} (hspell : format.Respells v v') :
    format.ofJson? v = format.ofJson? v' := by
  cases hspell with
  | permute hperm => rw [ofJson?, ofJson?, Json.Value.fields?_perm hperm]
  | inOrder hlength =>
      rw [ofJson?, ofJson?, Json.Value.fields?_zip format.nodup hlength,
        Json.Value.fields?_array hlength]
  | @usual name v members husual hmissing =>
      have hname := format.mem_of_isUsual husual
      rw [ofJson?, ofJson?, Json.Value.fields?_cons_of_missing format.nodup hname hmissing]
      cases hfields : (Json.Value.object members).fields? format.names format.strict with
      | none => rfl
      | some fields =>
          have hlength := Json.Value.length_of_fields? hfields
          have hnone := Json.Value.fields?_set_none format.nodup hname hmissing hfields
          calc format.read fields
              = format.read (fields.set (format.names.idxOf name) none) := by rw [hnone]
            _ = format.read (fields.set (format.names.idxOf name) (some v)) :=
                (format.read_usual husual fields hlength).symm
  | unknown hstrict hname =>
      rw [ofJson?, ofJson?, hstrict, Json.Value.fields?_cons_of_notMem hname]

/-- Two values of one field that are read alike. -/
theorem ofJson?_cons_eq {name : String} {v v' : Json.Value}
    {members : List (Option String × Json.Value)} (hname : name ∈ format.names)
    (hread : ∀ fields : List (Option Json.Value), fields.length = format.names.length →
      format.read (fields.set (format.names.idxOf name) (some v)) =
        format.read (fields.set (format.names.idxOf name) (some v'))) :
    format.ofJson? (.object ((some name, v) :: members)) =
      format.ofJson? (.object ((some name, v') :: members)) := by
  by_cases hmissing : ∀ m ∈ members, m.1 ≠ some name
  · rw [ofJson?, ofJson?, Json.Value.fields?_cons_of_missing format.nodup hname hmissing,
      Json.Value.fields?_cons_of_missing format.nodup hname hmissing]
    cases hfields : (Json.Value.object members).fields? format.names format.strict with
    | none => rfl
    | some fields => exact hread fields (Json.Value.length_of_fields? hfields)
  · push Not at hmissing
    obtain ⟨m, hmem, hsame⟩ := hmissing
    have hrepeated (v : Json.Value) :
        2 ≤ ((some name, v) :: members).countP fun m => m.1 == some name := by
      have hpos : 0 < members.countP fun m => m.1 == some name :=
        List.countP_pos_iff.mpr ⟨m, hmem, by simpa using hsame⟩
      rw [List.countP_cons_of_pos (by simp)]
      omega
    rw [ofJson?, ofJson?, Json.Value.fields?_of_repeated hname (hrepeated v),
      Json.Value.fields?_of_repeated hname (hrepeated v')]

theorem ofJson?_of_not_isAdmitted {m : Option String × Json.Value}
    {members : List (Option String × Json.Value)} (hmem : m ∈ members)
    (hstrange : ¬Json.Value.IsAdmitted format.names format.strict m) :
    format.ofJson? (.object members) = none := by
  rw [ofJson?, Json.Value.fields?_of_not_admitted fun hall => hstrange (hall m hmem)]
  rfl

theorem ofJson?_of_repeated {name : String} {members : List (Option String × Json.Value)}
    (hname : name ∈ format.names)
    (hrepeated : 2 ≤ members.countP fun m => m.1 == some name) :
    format.ofJson? (.object members) = none := by
  rw [ofJson?, Json.Value.fields?_of_repeated hname hrepeated]
  rfl

end RecordFormat

end ObstacleWatch
