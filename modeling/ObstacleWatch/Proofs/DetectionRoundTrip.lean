import ObstacleWatch.Proofs.ContentReading
import ObstacleWatch.Proofs.EdgeRange
import ObstacleWatch.Proofs.JsonRoundTrip

/-!
# Detections survive being written

A detection is written with all its fields in the order of their names, so the reader finds each of
them once and takes no usual value for a missing one.  The integers are read as they are written,
and a class name whatever its characters are.  What a single becomes when it is written and read
again is a matter of its digits; where that is the same single, a detection is read back unchanged.

A single that is no finite number has no digits.  It is written as a null, which no field accepts,
so such a detection is refused and never taken for another.
-/

namespace ObstacleWatch

open Json (Value)

/-! ## Singles without digits -/

/-- A single that is not finite is written as a null. -/
theorem ofSingle_of_not_isFinite {x : Float32} (hx : x.isFinite = false) :
    Value.ofSingle x = .null := by
  unfold Value.ofSingle
  cases hread : Binary.ofSingle x with
  | nan => rfl
  | infinite negative => rfl
  | finite negative mantissa exponent =>
      have hfinite := isFinite_single_iff_ofSingle.mpr ⟨_, _, _, hread⟩
      rw [hx] at hfinite
      contradiction

/-- A single whose written digits are read as this single. -/
def ReadsBackSingle (x : Float32) : Prop :=
  (Value.ofString? (Value.ofSingle x).render).bind Value.toSingle? = some x

theorem toSingle?_ofSingle {x : Float32} (hx : ReadsBackSingle x) :
    (Value.ofSingle x).toSingle? = some x := by
  rwa [ReadsBackSingle, Value.ofString?_render (Value.isRegular_ofSingle x)] at hx

theorem toSingle?_ofSingle_of_not_isFinite {x : Float32} (hx : x.isFinite = false) :
    (Value.ofSingle x).toSingle? = none := by
  rw [ofSingle_of_not_isFinite hx]
  rfl

/-! ## Boxes -/

namespace Box

theorem toJson_eq (b : Box) : b.toJson = .array (b.edges.map Value.ofSingle) :=
  rfl

theorem ofJson?_toJson {b : Box} (hedges : ∀ x ∈ b.edges, ReadsBackSingle x) :
    ofJson? b.toJson = some b := by
  have hread : (b.edges.map Value.ofSingle).mapM Value.toSingle? = some b.edges := by
    rw [mapM_eq_some_iff, List.forall₂_map_left_iff, List.forall₂_same]
    exact fun x hx => toSingle?_ofSingle (hedges x hx)
  rw [toJson_eq, ofJson?, Value.toListOf?, hread]
  rfl

theorem ofJson?_toJson_of_not_isFinite {b : Box} {x : Float32} (hmem : x ∈ b.edges)
    (hx : x.isFinite = false) : ofJson? b.toJson = none := by
  have hread : (b.edges.map Value.ofSingle).mapM Value.toSingle? = none := by
    refine mapM_eq_none_iff.mpr ⟨Value.ofSingle x, List.mem_map_of_mem hmem, ?_⟩
    exact toSingle?_ofSingle_of_not_isFinite hx
  rw [toJson_eq, ofJson?, Value.toListOf?, hread]

end Box

/-! ## Detections -/

namespace Detection

/-- The text of a detection. -/
def toText (d : Detection) : String :=
  d.toJson.render

def ofText? (s : String) : Option Detection :=
  (Value.ofString? s).bind ofJson?

/-- The numbers of a detection fit their fields: 64 bits with a sign, and 32 bits without. -/
def FitsFields (d : Detection) : Prop :=
  -2 ^ 63 ≤ d.trackId ∧ d.trackId < 2 ^ 63 ∧ d.classId < 2 ^ 32

instance (d : Detection) : Decidable d.FitsFields :=
  inferInstanceAs (Decidable (-2 ^ 63 ≤ d.trackId ∧ d.trackId < 2 ^ 63 ∧ d.classId < 2 ^ 32))

/-- The confidence and the edges of the box. -/
def singles (d : Detection) : List Float32 :=
  d.confidence :: d.box.edges

/-- The values of the fields, in the order of the names. -/
def fieldValues (d : Detection) : List Value :=
  [.ofInt d.trackId, .ofInt d.classId, .str d.className, .ofSingle d.confidence, d.box.toJson]

theorem toJson_eq (d : Detection) :
    d.toJson = .object ((fieldNames.map some).zip d.fieldValues) :=
  rfl

theorem isRegular_fieldValues (d : Detection) : ∀ v ∈ d.fieldValues, v.IsRegular := by
  have hbox : d.box.toJson.IsRegular := by
    rw [Box.toJson_eq]
    refine .array fun v hv => ?_
    obtain ⟨x, -, rfl⟩ := List.mem_map.mp hv
    exact Value.isRegular_ofSingle x
  simp only [fieldValues, List.forall_mem_cons]
  exact ⟨Value.isRegular_ofInt _, Value.isRegular_ofInt _, .text _, Value.isRegular_ofSingle _,
    hbox, nofun⟩

theorem isRegular_toJson (d : Detection) : d.toJson.IsRegular := by
  rw [toJson_eq]
  exact .object fun m hm => d.isRegular_fieldValues m.2 (List.of_mem_zip hm).2

/-- The reader of a written detection finds each field with its written value. -/
theorem ofText?_toText_eq (d : Detection) :
    ofText? d.toText = ofFields? (d.fieldValues.map some) := by
  have hfields : d.toJson.fields? fieldNames false = some (d.fieldValues.map some) := by
    rw [toJson_eq]
    exact Value.fields?_zip format.nodup rfl
  rw [ofText?, toText, Value.ofString?_render d.isRegular_toJson, Option.bind_some]
  change (d.toJson.fields? fieldNames false).bind ofFields? = _
  rw [hfields, Option.bind_some]

variable {d : Detection}

theorem ofFields?_fieldValues (hfits : d.FitsFields) :
    ofFields? (d.fieldValues.map some) =
      ((Value.ofSingle d.confidence).toSingle?).bind fun confidence =>
        (Box.ofJson? d.box.toJson).map fun box =>
          { d with confidence := confidence, box := box } := by
  obtain ⟨hlow, hhigh, hclass⟩ := hfits
  have htrackId : (Value.ofInt d.trackId).toIntIn? (-Int.pow 2 63) (Int.pow 2 63 - 1) =
      some d.trackId :=
    Value.toIntIn?_ofInt ⟨hlow, Int.le_sub_one_of_lt hhigh⟩ le_rfl (by decide)
  have hclassId : (Value.ofInt d.classId).toNatUpTo? (Nat.pow 2 32 - 1) = some d.classId := by
    have hint : (Value.ofInt d.classId).toIntIn? 0 (Nat.pow 2 32 - 1 : Nat) = some ↑d.classId := by
      refine Value.toIntIn?_ofInt ⟨?_, ?_⟩ (by decide) (by decide)
      · exact Int.natCast_nonneg _
      · exact Int.ofNat_le.mpr (Nat.le_sub_one_of_lt hclass)
    rw [Value.toNatUpTo?, hint]
    rfl
  simp only [fieldValues, List.map_cons, List.map_nil, ofFields?, fieldOr, htrackId, hclassId]
  cases (Value.ofSingle d.confidence).toSingle? <;> cases Box.ofJson? d.box.toJson <;> rfl

/-- A detection is read back from its text unchanged if its singles are finite and their digits are
read back, and refused if one of them is not finite. -/
theorem read_back_or_refused (hfits : d.FitsFields) :
    ((∀ x ∈ d.singles, x.isFinite = true) →
        (∀ x ∈ d.singles, x.isFinite = true → ReadsBackSingle x) → ofText? d.toText = some d) ∧
      ((∃ x ∈ d.singles, x.isFinite = false) → ofText? d.toText = none) := by
  rw [ofText?_toText_eq, ofFields?_fieldValues hfits]
  constructor
  · intro hfinite hsingles
    have hread : ∀ x ∈ d.singles, ReadsBackSingle x := fun x hx => hsingles x hx (hfinite x hx)
    obtain ⟨hconfidence, hedges⟩ := List.forall_mem_cons.mp hread
    rw [toSingle?_ofSingle hconfidence, Box.ofJson?_toJson hedges]
    rfl
  · rintro ⟨x, hmem, hx⟩
    cases hmem with
    | head => rw [toSingle?_ofSingle_of_not_isFinite hx, Option.bind_none]
    | tail _ hmem =>
        rw [Box.ofJson?_toJson_of_not_isFinite hmem hx]
        simp

/-- Quotes, a backslash, control characters and letters of more than one byte in the class name, and
numbers at the ends of their ranges. -/
def awkwardDetection : Detection where
  trackId := -2 ^ 63
  classId := 2 ^ 32 - 1
  className := "\"a\\b\"\n\x01é中"
  confidence := 0.1
  box := ⟨-1.5, 0.001, 123456.79, 3e20⟩

def unboundedDetection : Detection :=
  { awkwardDetection with box := { awkwardDetection.box with bottom := 1 / 0 } }

theorem read_back_or_refused_awkward :
    awkwardDetection.FitsFields ∧
      (∀ x ∈ awkwardDetection.singles, x.isFinite = true ∧ ReadsBackSingle x) ∧
      ofText? awkwardDetection.toText = some awkwardDetection ∧
      ofText? unboundedDetection.toText = none := by
  have hsingles : ∀ x ∈ awkwardDetection.singles, x.isFinite = true ∧ ReadsBackSingle x := by
    unfold ReadsBackSingle
    decide +kernel
  have hbottom : ∃ x ∈ unboundedDetection.singles, x.isFinite = false := by decide +kernel
  have hread := (read_back_or_refused (d := awkwardDetection) (by decide)).1
    (fun x hx => (hsingles x hx).1) fun x hx _ => (hsingles x hx).2
  have hrefused := (read_back_or_refused (d := unboundedDetection) (by decide)).2 hbottom
  exact ⟨by decide, hsingles, hread, hrefused⟩

end Detection

end ObstacleWatch
