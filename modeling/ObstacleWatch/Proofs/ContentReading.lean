import Mathlib
import ObstacleWatch.Proofs.RecordingLines

/-!
# Frames are read by content

Two lines that spell the same content give the same frame.  What counts as the same content is put
together from single changes: of the spelling of a frame, and of the spelling of one of its
detections.  The two records differ in one respect only: a detection may carry members that nobody
knows, and a frame may not.  A name that comes twice is refused in both, and so is a name of a
detection's member that is no text.
-/

namespace ObstacleWatch

open Json (Value)

/-! ## Detections -/

namespace Detection

/-- The values that say as much as a missing field. -/
inductive IsUsual : String → Value → Prop
  | trackId : IsUsual "track_id" (.ofInt (-1))
  | classId : IsUsual "class_id" (.ofInt 0)
  /-- However zero is spelled. -/
  | confidence {v : Value} (hzero : v.toSingle? = some 0) : IsUsual "confidence" v

/-- A detection from the values of its fields. -/
def ofFields? : List (Option Value) → Option Detection
  | [trackId, classId, some className, confidence, some box] => do
      let trackId ← fieldOr untrackedId (·.toIntIn? (-Int.pow 2 63) (Int.pow 2 63 - 1)) trackId
      let classId ← fieldOr 0 (·.toNatUpTo? (Nat.pow 2 32 - 1)) classId
      let className ← className.toText?
      let confidence ← fieldOr 0 (·.toSingle?) confidence
      let box ← Box.ofJson? box
      some ⟨trackId, classId, className, confidence, box⟩
  | _ => none

theorem ofFields?_congr {trackId trackId' classId classId' confidence confidence' : Option Value}
    (htrackId :
      fieldOr untrackedId (·.toIntIn? (-Int.pow 2 63) (Int.pow 2 63 - 1)) trackId =
        fieldOr untrackedId (·.toIntIn? (-Int.pow 2 63) (Int.pow 2 63 - 1)) trackId')
    (hclassId : fieldOr 0 (·.toNatUpTo? (Nat.pow 2 32 - 1)) classId =
      fieldOr 0 (·.toNatUpTo? (Nat.pow 2 32 - 1)) classId')
    (hconfidence : fieldOr 0 (·.toSingle?) confidence = fieldOr 0 (·.toSingle?) confidence')
    (className box : Option Value) :
    ofFields? [trackId, classId, className, confidence, box] =
      ofFields? [trackId', classId', className, confidence', box] := by
  match className, box with
  | none, _ => rfl
  | some _, none => rfl
  | some className, some box =>
      dsimp only [ofFields?]
      rw [htrackId, hclassId, hconfidence]

theorem ofFields?_usual {name : String} {v : Value} (husual : IsUsual name v)
    (fields : List (Option Value)) (hlength : fields.length = fieldNames.length) :
    ofFields? (fields.set (fieldNames.idxOf name) (some v)) =
      ofFields? (fields.set (fieldNames.idxOf name) none) := by
  match fields, hlength with
  | [trackId, classId, className, confidence, box], _ =>
      cases husual with
      | trackId =>
          have hread : (Value.ofInt (-1)).toIntIn? (-Int.pow 2 63) (Int.pow 2 63 - 1) =
              some untrackedId := by decide +kernel
          change ofFields? [some (.ofInt (-1)), classId, className, confidence, box] =
            ofFields? [none, classId, className, confidence, box]
          refine ofFields?_congr ?_ rfl rfl className box
          exact hread
      | classId =>
          have hread : (Value.ofInt 0).toNatUpTo? (Nat.pow 2 32 - 1) = some 0 := by
            decide +kernel
          change ofFields? [trackId, some (.ofInt 0), className, confidence, box] =
            ofFields? [trackId, none, className, confidence, box]
          refine ofFields?_congr rfl ?_ rfl className box
          exact hread
      | confidence hzero =>
          change ofFields? [trackId, classId, className, some v, box] =
            ofFields? [trackId, classId, className, none, box]
          refine ofFields?_congr rfl rfl ?_ className box
          exact hzero

def format : RecordFormat Detection where
  names := fieldNames
  strict := false
  IsUsual := IsUsual
  read := ofFields?
  nodup := by decide
  mem_of_isUsual husual := by cases husual <;> decide
  read_usual := ofFields?_usual

theorem ofJson?_eq (v : Value) : ofJson? v = format.ofJson? v :=
  rfl

theorem ofJson?_of_textless {v : Value} {members : List (Option String × Value)}
    (htextless : (none, v) ∈ members) : ofJson? (.object members) = none := by
  refine format.ofJson?_of_not_isAdmitted htextless ?_
  rintro ⟨name, hname, -⟩
  contradiction

end Detection

/-! ## Frames -/

namespace Frame

/-- The values that say as much as a missing field. -/
inductive IsUsual : String → Value → Prop
  | timestamp : IsUsual "timestamp_s" .null
  | detections : IsUsual "detections" (.array [])

/-- A frame from the values of its fields. -/
def ofFields? : List (Option Value) → Option Frame
  | [timestamp, some width, some height, detections] => do
      let timestamp ← fieldOr none timestampOfJson? timestamp
      let width ← width.toNatUpTo? (Nat.pow 2 32 - 1)
      let height ← height.toNatUpTo? (Nat.pow 2 32 - 1)
      let detections ← fieldOr [] (·.toListOf? Detection.ofJson?) detections
      some ⟨⟨width, height⟩, timestamp, detections⟩
  | _ => none

theorem ofFields?_congr {timestamp timestamp' detections detections' : Option Value}
    (htimestamp :
      fieldOr none timestampOfJson? timestamp = fieldOr none timestampOfJson? timestamp')
    (hdetections : fieldOr [] (·.toListOf? Detection.ofJson?) detections =
      fieldOr [] (·.toListOf? Detection.ofJson?) detections') (width height : Option Value) :
    ofFields? [timestamp, width, height, detections] =
      ofFields? [timestamp', width, height, detections'] := by
  match width, height with
  | none, _ => rfl
  | some _, none => rfl
  | some width, some height =>
      dsimp only [ofFields?]
      rw [htimestamp, hdetections]

theorem ofFields?_usual {name : String} {v : Value} (husual : IsUsual name v)
    (fields : List (Option Value)) (hlength : fields.length = fieldNames.length) :
    ofFields? (fields.set (fieldNames.idxOf name) (some v)) =
      ofFields? (fields.set (fieldNames.idxOf name) none) := by
  match fields, hlength with
  | [timestamp, width, height, detections], _ =>
      cases husual with
      | timestamp =>
          change ofFields? [some .null, width, height, detections] =
            ofFields? [none, width, height, detections]
          refine ofFields?_congr ?_ rfl width height
          rfl
      | detections =>
          change ofFields? [timestamp, width, height, some (.array [])] =
            ofFields? [timestamp, width, height, none]
          refine ofFields?_congr rfl ?_ width height
          rfl

def format : RecordFormat Frame where
  names := fieldNames
  strict := true
  IsUsual := IsUsual
  read := ofFields?
  nodup := by decide
  mem_of_isUsual husual := by cases husual <;> decide
  read_usual := ofFields?_usual

theorem ofJson?_eq (v : Value) : ofJson? v = format.ofJson? v :=
  rfl

/-- One change in the spelling of a frame or of one of its detections. -/
inductive Respells : Value → Value → Prop
  | frame {v v' : Value} (hspell : format.Respells v v') : Respells v v'
  | detection {v v' : Value} {before after : List Value} {members : List (Option String × Value)}
      (hspell : Detection.format.Respells v v') :
      Respells (.object ((some "detections", .array (before ++ v :: after)) :: members))
        (.object ((some "detections", .array (before ++ v' :: after)) :: members))

/-- Values that any number of changes lead from one to the other, there and back. -/
def SameContent : Value → Value → Prop :=
  Relation.EqvGen Respells

theorem ofJson?_eq_of_respells {v v' : Value} (hspell : Respells v v') :
    ofJson? v = ofJson? v' := by
  cases hspell with
  | frame hspell => exact RecordFormat.ofJson?_eq_of_respells hspell
  | @detection v v' before after members hspell =>
      have hdetection : Detection.ofJson? v = Detection.ofJson? v' := by
        rw [Detection.ofJson?_eq, Detection.ofJson?_eq]
        exact RecordFormat.ofJson?_eq_of_respells hspell
      have hlist : (Value.array (before ++ v :: after)).toListOf? Detection.ofJson? =
          (Value.array (before ++ v' :: after)).toListOf? Detection.ofJson? := by
        simp only [Value.toListOf?, List.mapM_append, List.mapM_cons, hdetection]
      refine format.ofJson?_cons_eq (by decide) fun fields hlength => ?_
      match fields, hlength with
      | [timestamp, width, height, detections], _ =>
          change ofFields? [timestamp, width, height, some (.array (before ++ v :: after))] =
            ofFields? [timestamp, width, height, some (.array (before ++ v' :: after))]
          refine ofFields?_congr rfl ?_ width height
          exact hlist

theorem ofJson?_eq_of_sameContent {v v' : Value} (hsame : SameContent v v') :
    ofJson? v = ofJson? v' := by
  induction hsame with
  | rel v v' hspell => exact ofJson?_eq_of_respells hspell
  | refl v => rfl
  | symm v v' _ ih => exact ih.symm
  | trans v₁ v₂ v₃ _ _ ih₁ ih₂ => exact ih₁.trans ih₂

/-- The value of a member, or a usual one if there is no such member. -/
def valueOr (usual : Value) (name : String) (members : List (Option String × Value)) : Value :=
  (members.lookup (some name)).getD usual

/-- The array form of a frame; its width and height are never missing. -/
def inOrder (members : List (Option String × Value)) : Value :=
  .array [valueOr .null "timestamp_s" members, valueOr .null "width" members,
    valueOr .null "height" members, valueOr (.array []) "detections" members]

/-- A frame gives the values of its fields, each at most once. -/
theorem exists_fields_of_ofJson? {members : List (Option String × Value)} {f : Frame}
    (hframe : ofJson? (.object members) = some f) :
    ∃ timestamp width height detections,
      unique? (some "timestamp_s") members = some timestamp ∧
        unique? (some "width") members = some (some width) ∧
        unique? (some "height") members = some (some height) ∧
        unique? (some "detections") members = some detections ∧
        ofFields? [timestamp, some width, some height, detections] = some f := by
  obtain ⟨fields, hfields, hread⟩ := Option.bind_eq_some_iff.mp hframe
  have hadmitted := Value.isAdmitted_of_fields? hfields
  rw [Value.fields?_object hadmitted, fieldNames, mapM_eq_some_iff] at hfields
  simp only [List.forall₂_cons_left_iff, List.forall₂_nil_left_iff] at hfields
  obtain ⟨timestamp, _, htimestamp, ⟨width, _, hwidth, ⟨height, _, hheight,
    ⟨detections, _, hdetections, rfl, rfl⟩, rfl⟩, rfl⟩, rfl⟩ := hfields
  match width, height, hread with
  | some width, some height, hread =>
      exact ⟨timestamp, width, height, detections, htimestamp, hwidth, hheight, hdetections, hread⟩

theorem ofJson?_inOrder {members : List (Option String × Value)} {f : Frame}
    (hframe : ofJson? (.object members) = some f) : ofJson? (inOrder members) = some f := by
  obtain ⟨timestamp, width, height, detections, htimestamp, hwidth, hheight, hdetections, hread⟩ :=
    exists_fields_of_ofJson? hframe
  have harray : inOrder members =
      .array [timestamp.getD .null, width, height, detections.getD (.array [])] := by
    rw [inOrder, valueOr, valueOr, valueOr, valueOr, lookup_of_unique? htimestamp,
      lookup_of_unique? hwidth, lookup_of_unique? hheight, lookup_of_unique? hdetections]
    rfl
  calc ofJson? (inOrder members)
      = ofFields? [some (timestamp.getD .null), some width, some height,
          some (detections.getD (.array []))] := by
        rw [harray, ofJson?_eq, RecordFormat.ofJson?, Value.fields?_array rfl]
        rfl
    _ = ofFields? [timestamp, some width, some height, detections] := by
        refine ofFields?_congr ?_ ?_ (some width) (some height)
        · cases timestamp <;> rfl
        · cases detections <;> rfl
    _ = some f := hread

/-! ### What is refused -/

section

variable {members : List (Option String × Value)} {name : String}

theorem ofJson?_of_unknown {m : Option String × Value} (hmem : m ∈ members)
    (hunknown : ∀ name ∈ fieldNames, m.1 ≠ some name) : ofJson? (.object members) = none := by
  have hstrange : ¬Value.IsAdmitted fieldNames true m := by
    rintro ⟨name, hname, hknown⟩
    exact hunknown name (hknown rfl) hname
  exact format.ofJson?_of_not_isAdmitted hmem hstrange

/-- A frame has no detection that is refused. -/
theorem ofJson?_of_refused_detection {items : List Value} {v : Value}
    (hmem : (some "detections", .array items) ∈ members) (hitem : v ∈ items)
    (hrefused : Detection.ofJson? v = none) : ofJson? (.object members) = none := by
  rw [Option.eq_none_iff_forall_ne_some]
  intro f hframe
  obtain ⟨timestamp, width, height, detections, -, -, -, hdetections, hread⟩ :=
    exists_fields_of_ofJson? hframe
  have hvalue := eq_some_of_unique? hmem hdetections
  have hlist : (Value.array items).toListOf? Detection.ofJson? = none :=
    mapM_eq_none_iff.mpr ⟨v, hitem, hrefused⟩
  have hnone : fieldOr [] (Value.toListOf? Detection.ofJson?) (some (.array items)) = none := hlist
  dsimp only [ofFields?] at hread
  rw [hvalue, hnone] at hread
  simp at hread

end

end Frame

/-! ## Lines -/

/-- A line that spells a value, with white space around it at will. -/
def Spells (line : List Char) (v : Value) : Prop :=
  Value.parse? (trimBlank line) = some v

theorem not_isBlankLine_of_spells {line : List Char} {v : Value} (hline : Spells line v) :
    ¬IsBlankLine line := by
  intro hblank
  rw [Spells, hblank] at hline
  cases hline

theorem RecordedLine.ofChars_of_spells {line : List Char} {v : Value} (hline : Spells line v) :
    ofChars line =
      match Frame.ofJson? v with
      | some f => .frame f
      | none => .malformed := by
  rw [ofChars_of_not_isBlankLine (not_isBlankLine_of_spells hline), Frame.ofLine?, hline]
  rfl

namespace Frame

/-- How the lines of a recording are read, seen from one frame object that gives a frame: all lines
with the same content give this frame, its values alone in their order among them, and no line with
a member too many gives any. -/
structure ReadByContent (members : List (Option String × Value)) (f : Frame) : Prop where
  content : ∀ line v, SameContent (.object members) v → Spells line v →
    RecordedLine.ofChars line = .frame f
  arrayForm : ∀ line, Spells line (inOrder members) → RecordedLine.ofChars line = .frame f
  unknownMember : ∀ line members' m, Spells line (.object members') → m ∈ members' →
    (∀ name ∈ fieldNames, m.1 ≠ some name) → RecordedLine.ofChars line = .malformed
  repeatedMember : ∀ line members', Spells line (.object members') →
    ∀ name ∈ fieldNames, 2 ≤ members'.countP (fun m => m.1 == some name) →
    RecordedLine.ofChars line = .malformed
  repeatedInDetection : ∀ line members' items detection, Spells line (.object members') →
    (some "detections", .array items) ∈ members' → .object detection ∈ items →
    ∀ name ∈ Detection.fieldNames, 2 ≤ detection.countP (fun m => m.1 == some name) →
    RecordedLine.ofChars line = .malformed
  textlessInDetection : ∀ line members' items detection v, Spells line (.object members') →
    (some "detections", .array items) ∈ members' → .object detection ∈ items →
    (none, v) ∈ detection → RecordedLine.ofChars line = .malformed

theorem ofJson?_of_spells {line : List Char} {v : Value} {f : Frame} (hline : Spells line v)
    (hframe : RecordedLine.ofChars line = .frame f) : ofJson? v = some f := by
  rw [RecordedLine.ofChars_of_spells hline] at hframe
  cases hread : ofJson? v with
  | none =>
      rw [hread] at hframe
      contradiction
  | some f' =>
      rw [hread] at hframe
      rw [RecordedLine.frame.inj hframe]

theorem ofChars_of_ofJson? {line : List Char} {v : Value} {f : Frame} (hline : Spells line v)
    (hframe : ofJson? v = some f) : RecordedLine.ofChars line = .frame f := by
  rw [RecordedLine.ofChars_of_spells hline, hframe]

theorem ofChars_of_refused {line : List Char} {v : Value} (hline : Spells line v)
    (hrefused : ofJson? v = none) : RecordedLine.ofChars line = .malformed := by
  rw [RecordedLine.ofChars_of_spells hline, hrefused]

/-- A frame depends on the content of its line and not on the spelling. -/
theorem read_by_content {line : List Char} {members : List (Option String × Value)} {f : Frame}
    (hline : Spells line (.object members)) (hframe : RecordedLine.ofChars line = .frame f) :
    ReadByContent members f := by
  have hread := ofJson?_of_spells hline hframe
  constructor
  case content =>
    intro line' v hsame hline'
    exact ofChars_of_ofJson? hline' (ofJson?_eq_of_sameContent hsame ▸ hread)
  case arrayForm =>
    intro line' hline'
    exact ofChars_of_ofJson? hline' (ofJson?_inOrder hread)
  case unknownMember =>
    intro line' members' m hline' hmem hunknown
    exact ofChars_of_refused hline' (ofJson?_of_unknown hmem hunknown)
  case repeatedMember =>
    intro line' members' hline' name hname hrepeated
    exact ofChars_of_refused hline' (format.ofJson?_of_repeated hname hrepeated)
  case repeatedInDetection =>
    intro line' members' items detection hline' hmem hitem name hname hrepeated
    have hrefused := Detection.format.ofJson?_of_repeated hname hrepeated
    exact ofChars_of_refused hline' (ofJson?_of_refused_detection hmem hitem hrefused)
  case textlessInDetection =>
    intro line' members' items detection v hline' hmem hitem htextless
    have hrefused := Detection.ofJson?_of_textless htextless
    exact ofChars_of_refused hline' (ofJson?_of_refused_detection hmem hitem hrefused)

def integerOf (digits : String) : Value :=
  .number ⟨false, digits.toList, [], none⟩

def personBox : Value :=
  .array [integerOf "1", integerOf "2", integerOf "3", integerOf "4"]

def personDetection : List (Option String × Value) :=
  [(some "class_name", .str "Person"), (some "bbox", personBox)]

def personFrame : List (Option String × Value) :=
  [(some "width", integerOf "640"), (some "height", integerOf "480"),
    (some "detections", .array [.object personDetection])]

def doubtfulDetection : List (Option String × Value) :=
  (some "confidence", .ofInt 0) :: personDetection

/-- With a member that is passed over. -/
def maskedDetection : List (Option String × Value) :=
  (some "mask", .array [.null]) :: doubtfulDetection

def detectionsFirst (detection : List (Option String × Value)) : List (Option String × Value) :=
  [(some "detections", .array ([] ++ .object detection :: [])),
    (some "width", integerOf "640"), (some "height", integerOf "480")]

def personText : List Char :=
  "\x7b\"class_name\":\"Person\",\"bbox\":[1,2,3,4]\x7d".toList

def personLine : List Char :=
  "\x7b\"width\":640,\"height\":480,\"detections\":[".toList ++ personText ++ "]\x7d".toList

def maskedLine : List Char :=
  "\x7b\"detections\": [\x7b\"mask\":[null],\"confidence\":0,".toList ++ personText.tail ++
    "], \"width\": 640, \"height\": 480\x7d".toList

def valuesLine : List Char :=
  "[null, 640, 480, [".toList ++ personText ++ "]]".toList

theorem read_by_content_of_personLine :
    Spells personLine (.object personFrame) ∧
      ∃ f, RecordedLine.ofChars personLine = .frame f ∧ ReadByContent personFrame f ∧
        RecordedLine.ofChars maskedLine = .frame f ∧
        RecordedLine.ofChars valuesLine = .frame f := by
  have hline : Spells personLine (.object personFrame) := by
    unfold Spells
    cbv
  have hsome : (ofJson? (.object personFrame)).isSome = true := by decide +kernel
  obtain ⟨f, hread⟩ := Option.isSome_iff_exists.mp hsome
  have hframe := ofChars_of_ofJson? hline hread
  have hcontent := read_by_content hline hframe
  have hfront : Respells (.object personFrame) (.object (detectionsFirst personDetection)) :=
    .frame (.permute (List.perm_append_singleton _ [_, _]))
  have hzero : (Value.ofInt 0).toSingle? = some 0 := by decide +kernel
  have hconfidence : Detection.format.Respells (.object personDetection)
      (.object doubtfulDetection) :=
    .usual (Detection.IsUsual.confidence hzero) (by simp [personDetection])
  have hmask : Detection.format.Respells (.object doubtfulDetection) (.object maskedDetection) :=
    .unknown rfl (by decide)
  have hdoubtful : Respells (.object (detectionsFirst personDetection))
      (.object (detectionsFirst doubtfulDetection)) := .detection hconfidence
  have hmasked : Respells (.object (detectionsFirst doubtfulDetection))
      (.object (detectionsFirst maskedDetection)) := .detection hmask
  have hsame : SameContent (.object personFrame) (.object (detectionsFirst maskedDetection)) :=
    .trans _ _ _ (.rel _ _ hfront) (.trans _ _ _ (.rel _ _ hdoubtful) (.rel _ _ hmasked))
  refine ⟨hline, f, hframe, hcontent, hcontent.content _ _ hsame ?_,
    hcontent.arrayForm _ ?_⟩
  · unfold Spells
    cbv
  · unfold Spells
    cbv

end Frame

end ObstacleWatch
