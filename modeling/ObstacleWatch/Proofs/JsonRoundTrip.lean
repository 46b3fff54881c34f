import Mathlib
import ObstacleWatch.Json.Record
import ObstacleWatch.Json.Reader
import ObstacleWatch.Json.Writer

/-!
# Reading undoes writing

A value that is written and read again is the same value.  The one demand is on its numbers: a
number is a record of digits, and only digits in the right places can be read.  Texts pass whatever
they hold, since every character is either written as it stands or spelled by an escape of its own.

The reader takes the longest number it can, so what follows a value matters: a comma, a bracket or
the end of the text cannot be taken for another digit.
-/

namespace ObstacleWatch.Json

/-! ## Texts -/

/-- The characters with an escape of one letter. -/
def shortlyEscaped : List Char :=
  ['\x22', '\\', '\x08', '\t', '\n', '\x0c', '\r']

/-- The piece that a character is read back as: the other control characters are spelled by their
number. -/
def writtenPiece (c : Char) : Piece :=
  if c ∉ shortlyEscaped ∧ c.toNat < 32 then .unit c.toNat else .char c

theorem hexUnit?_hexDigit :
    ∀ n < 32, hexUnit? '0' '0' (hexDigit (n / 16)) (hexDigit (n % 16)) = some n := by
  decide

theorem escapeChar_of_notMem {c : Char} (hc : c ∉ shortlyEscaped) :
    escapeChar c =
      if c.toNat < 32 then
        ['\\', 'u', '0', '0', hexDigit (c.toNat / 16), hexDigit (c.toNat % 16)]
      else [c] := by
  simp only [shortlyEscaped, List.mem_cons, List.not_mem_nil, or_false, not_or] at hc
  simp only [escapeChar, hc, if_false]

theorem pieces_plain {c : Char} (hc : c ∉ shortlyEscaped) (hplain : ¬c.toNat < 32)
    (rest : List Char) :
    pieces (c :: rest) = (pieces rest).map fun (ps, rest) => (.char c :: ps, rest) := by
  simp only [shortlyEscaped, List.mem_cons, not_or] at hc
  conv => lhs; unfold pieces
  split
  case h_5 c' rest' _ _ _ heq =>
    obtain ⟨rfl, rfl⟩ := List.cons.inj heq
    rw [if_neg hplain]
    cases pieces rest <;> rfl
  all_goals simp_all

theorem pieces_escapeChar (c : Char) (rest : List Char) :
    pieces (escapeChar c ++ rest) =
      (pieces rest).map fun (ps, rest) => (writtenPiece c :: ps, rest) := by
  by_cases hc : c ∈ shortlyEscaped
  · have hpiece : writtenPiece c = .char c := if_neg fun h => h.1 hc
    rw [hpiece]
    simp only [shortlyEscaped, List.mem_cons, List.not_mem_nil, or_false] at hc
    rcases hc with rfl | rfl | rfl | rfl | rfl | rfl | rfl <;> cases h : pieces rest <;>
      simp [escapeChar, pieces, shortEscape?, h]
  · rw [escapeChar_of_notMem hc, writtenPiece]
    by_cases hcontrol : c.toNat < 32
    · rw [if_pos hcontrol, if_pos ⟨hc, hcontrol⟩]
      simp only [List.cons_append, List.nil_append, pieces, hexUnit?_hexDigit _ hcontrol]
      cases pieces rest <;> rfl
    · rw [if_neg hcontrol, if_neg fun h => hcontrol h.2]
      exact pieces_plain hc hcontrol rest

theorem spell?_unit {n : Nat} (hn : n < 32) (ps : List Piece) :
    spell? (.unit n :: ps) = (spell? ps).map (Char.ofNat n :: ·) := by
  have hhigh : isHighUnit n = false := by simp only [isHighUnit]; grind
  have hlow : isLowUnit n = false := by simp only [isLowUnit]; grind
  match ps with
  | [] | .char _ :: _ | .unit _ :: _ => simp [spell?, hhigh, hlow]

theorem spell?_writtenPiece (c : Char) (ps : List Piece) :
    spell? (writtenPiece c :: ps) = (spell? ps).map (c :: ·) := by
  unfold writtenPiece
  split_ifs with hcontrol
  · rw [spell?_unit hcontrol.2, Char.ofNat_toNat]
  · rfl

theorem pieces_written (cs rest : List Char) :
    pieces (cs.flatMap escapeChar ++ '\x22' :: rest) = some (cs.map writtenPiece, rest) := by
  induction cs with
  | nil => rfl
  | cons c cs ih =>
      rw [List.flatMap_cons, List.append_assoc, pieces_escapeChar, ih]
      rfl

theorem spell?_written (cs : List Char) : spell? (cs.map writtenPiece) = some cs := by
  induction cs with
  | nil => rfl
  | cons c cs ih =>
      rw [List.map_cons, spell?_writtenPiece, ih]
      rfl

/-- A written text behind its opening quote. -/
theorem readText_textChars (t : Option String) (rest : List Char) :
    readText ((textChars t).tail ++ rest) = some (t, rest) := by
  cases t with
  | none => rfl
  | some s =>
      simp only [textChars, List.tail_cons, List.append_assoc, List.cons_append, List.nil_append,
        readText, pieces_written, Option.bind_eq_bind, Option.bind_some, spell?_written,
        Option.map_some, String.ofList_toList]

theorem textChars_eq_cons (t : Option String) : textChars t = '\x22' :: (textChars t).tail := by
  cases t <;> rfl

/-! ## Numbers -/

/-- The end of the text or a character that cannot belong to a number. -/
def EndsNumber (rest : List Char) : Prop :=
  ∀ c ∈ rest.head?, c.isDigit = false ∧ c ∉ ['.', 'e', 'E']

def EndsDigits (rest : List Char) : Prop :=
  ∀ c ∈ rest.head?, c.isDigit = false

namespace Number

/-- The numbers of the grammar: digits in every place, none of them left out and no zero in front of
another digit. -/
structure IsRegular (n : Number) : Prop where
  whole_ne_nil : n.whole ≠ []
  whole_digits : ∀ c ∈ n.whole, c.isDigit = true
  no_leading_zero : n.whole.head? = some '0' → n.whole.length ≤ 1
  part_digits : ∀ c ∈ n.part, c.isDigit = true
  exponent_digits : ∀ x ∈ n.exponent, x.2 ≠ [] ∧ ∀ c ∈ x.2, c.isDigit = true

end Number

theorem readDigits_append {ds rest : List Char} (hne : ds ≠ []) (hds : ∀ c ∈ ds, c.isDigit = true)
    (hrest : EndsDigits rest) : readDigits (ds ++ rest) = some (ds, rest) := by
  have htake : rest.takeWhile Char.isDigit = [] := by
    cases rest with
    | nil => rfl
    | cons c cs => simpa using hrest c rfl
  have hdrop : rest.dropWhile Char.isDigit = rest := by
    cases rest with
    | nil => rfl
    | cons c cs => rw [List.dropWhile_cons_of_neg (by simpa using hrest c rfl)]
  rw [readDigits, List.takeWhile_append_of_pos hds, List.dropWhile_append_of_pos hds, htake, hdrop,
    List.append_nil]
  cases ds with
  | nil => contradiction
  | cons c cs => rfl

/-- The written form of a fraction. -/
def partChars (part : List Char) : List Char :=
  if part = [] then [] else '.' :: part

/-- The written form of an exponent. -/
def exponentChars : Option (Bool × List Char) → List Char
  | none => []
  | some (negative, ds) => 'e' :: (if negative then '-' else '+') :: ds

theorem EndsNumber.endsDigits {rest : List Char} (hrest : EndsNumber rest) : EndsDigits rest :=
  fun c hc => (hrest c hc).1

theorem endsDigits_exponentChars (exponent : Option (Bool × List Char)) {rest : List Char}
    (hrest : EndsNumber rest) : EndsDigits (exponentChars exponent ++ rest) := by
  cases exponent with
  | none => exact hrest.endsDigits
  | some x =>
      intro c hc
      obtain rfl : 'e' = c := Option.some.inj hc
      rfl

theorem readExponent_append {exponent : Option (Bool × List Char)} {rest : List Char}
    (hexponent : ∀ x ∈ exponent, x.2 ≠ [] ∧ ∀ c ∈ x.2, c.isDigit = true)
    (hrest : EndsNumber rest) :
    readExponent (exponentChars exponent ++ rest) = some (exponent, rest) := by
  cases exponent with
  | none =>
      cases rest with
      | nil => rfl
      | cons c cs =>
          have hc : ¬(c = 'e' ∨ c = 'E') := by
            have hc := (hrest c rfl).2
            grind
          exact if_neg hc
  | some x =>
      obtain ⟨negative, ds⟩ := x
      obtain ⟨hne, hds⟩ := hexponent _ rfl
      have hread := readDigits_append hne hds hrest.endsDigits
      cases negative <;>
        simp [exponentChars, readExponent, readExponentSign, hread]

theorem readPart_append {part : List Char} {exponent : Option (Bool × List Char)}
    {rest : List Char} (hpart : ∀ c ∈ part, c.isDigit = true) (hrest : EndsNumber rest) :
    readPart (partChars part ++ (exponentChars exponent ++ rest)) =
      some (part, exponentChars exponent ++ rest) := by
  have hends := endsDigits_exponentChars exponent hrest
  by_cases hnil : part = []
  · have hpoint : ∀ c ∈ (exponentChars exponent ++ rest).head?, c ≠ '.' := by
      cases exponent with
      | none =>
          intro c hc
          have hc := (hrest c hc).2
          grind
      | some x =>
          intro c hc
          obtain rfl : 'e' = c := Option.some.inj hc
          decide
    rw [partChars, if_pos hnil, List.nil_append, hnil]
    generalize exponentChars exponent ++ rest = cs at hpoint
    cases cs with
    | nil => rfl
    | cons c cs =>
        have hc := hpoint c rfl
        unfold readPart
        split <;> simp_all
  · rw [partChars, if_neg hnil, List.cons_append]
    exact readDigits_append hnil hpart hends

namespace Number

theorem toChars_eq (n : Number) :
    n.toChars = (if n.negative then ['-'] else []) ++
      (n.whole ++ (partChars n.part ++ exponentChars n.exponent)) := by
  obtain ⟨negative, whole, part, _ | ⟨negative', ds⟩⟩ := n <;>
    simp only [toChars, partChars, exponentChars, List.append_assoc]

end Number

theorem readUnsigned_append {n : Number} (hn : n.IsRegular) (negative : Bool) {rest : List Char}
    (hrest : EndsNumber rest) :
    readUnsigned negative (n.whole ++ (partChars n.part ++ (exponentChars n.exponent ++ rest))) =
      some (⟨negative, n.whole, n.part, n.exponent⟩, rest) := by
  have hends : EndsDigits (partChars n.part ++ (exponentChars n.exponent ++ rest)) := by
    unfold partChars
    split_ifs
    · exact endsDigits_exponentChars n.exponent hrest
    · intro c hc
      obtain rfl : '.' = c := Option.some.inj hc
      rfl
  have hzero : ¬(n.whole.head? = some '0' ∧ 1 < n.whole.length) :=
    fun h => absurd (hn.no_leading_zero h.1) (Nat.not_le_of_lt h.2)
  simp only [readUnsigned, readDigits_append hn.whole_ne_nil hn.whole_digits hends,
    readPart_append hn.part_digits hrest, readExponent_append hn.exponent_digits hrest,
    Option.bind_eq_bind, Option.bind_some, if_neg hzero]

theorem Number.IsRegular.exists_head {n : Number} (hn : n.IsRegular) :
    ∃ c cs, n.whole = c :: cs ∧ c.isDigit = true := by
  obtain ⟨c, cs, hwhole⟩ := List.exists_cons_of_ne_nil hn.whole_ne_nil
  exact ⟨c, cs, hwhole, hn.whole_digits c (by rw [hwhole]; exact List.mem_cons_self)⟩

/-- What a number can start with. -/
def startsNumber (c : Char) : Bool :=
  c = '-' || c.isDigit

theorem ne_of_startsNumber {c d : Char} (hc : startsNumber c = true)
    (hd : startsNumber d = false) : c ≠ d := by
  rintro rfl
  rw [hc] at hd
  contradiction

theorem Number.IsRegular.exists_toChars_head {n : Number} (hn : n.IsRegular) :
    ∃ c cs, n.toChars = c :: cs ∧ startsNumber c = true := by
  obtain ⟨c, cs, hwhole, hc⟩ := hn.exists_head
  rw [Number.toChars_eq, hwhole]
  cases n.negative with
  | true => exact ⟨'-', _, rfl, rfl⟩
  | false => exact ⟨c, _, rfl, by rw [startsNumber, hc, Bool.or_true]⟩

theorem readNumber_of_digit {c : Char} (hc : c.isDigit = true) (cs : List Char) :
    readNumber (c :: cs) = readUnsigned false (c :: cs) := by
  unfold readNumber
  split
  case h_1 cs' heq =>
    obtain ⟨rfl, -⟩ := List.cons.inj heq
    contradiction
  · rfl

theorem readNumber_toChars {n : Number} (hn : n.IsRegular) {rest : List Char}
    (hrest : EndsNumber rest) : readNumber (n.toChars ++ rest) = some (n, rest) := by
  have hread := readUnsigned_append hn n.negative hrest
  obtain ⟨c, cs, hwhole, hc⟩ := hn.exists_head
  rw [Number.toChars_eq]
  simp only [List.append_assoc]
  obtain ⟨negative, whole, part, exponent⟩ := n
  cases negative with
  | true => exact hread
  | false =>
      simp only at hwhole hread ⊢
      rw [hwhole] at hread ⊢
      rw [← hread]
      exact readNumber_of_digit hc _

/-! ## Values -/

/-- What a value can start with: neither a space nor a closing bracket. -/
def StartsValue (cs : List Char) : Prop :=
  ∃ c rest, cs = c :: rest ∧ isSpace c = false ∧ c ≠ ']'

theorem skipSpace_of_startsValue {cs : List Char} (hcs : StartsValue cs) : skipSpace cs = cs := by
  obtain ⟨c, rest, rfl, hc, -⟩ := hcs
  exact List.dropWhile_cons_of_neg (by simpa using hc)

theorem startsValue_of_startsNumber {c : Char} (hc : startsNumber c = true) (rest : List Char) :
    StartsValue (c :: rest) := by
  have hspace : ∀ d ∈ [' ', '\t', '\n', '\r'], c ≠ d := by
    intro d hd
    exact ne_of_startsNumber hc (by fin_cases hd <;> rfl)
  refine ⟨c, rest, rfl, ?_, ne_of_startsNumber hc rfl⟩
  simpa [isSpace, and_assoc] using hspace

namespace Value

/-- A value whose numbers are regular, at any depth. -/
inductive IsRegular : Value → Prop
  | null : IsRegular .null
  | bool (b : Bool) : IsRegular (.bool b)
  | number {n : Number} (hn : n.IsRegular) : IsRegular (.number n)
  | text (t : Option String) : IsRegular (.text t)
  | array {items : List Value} (hitems : ∀ v ∈ items, IsRegular v) : IsRegular (.array items)
  | object {members : List (Option String × Value)} (hmembers : ∀ m ∈ members, IsRegular m.2) :
      IsRegular (.object members)

theorem IsRegular.startsValue {v : Value} (hv : v.IsRegular) (rest : List Char) :
    StartsValue (v.toChars ++ rest) := by
  cases hv with
  | null => exact ⟨'n', _, rfl, rfl, by decide⟩
  | bool b => cases b <;> exact ⟨_, _, rfl, rfl, by decide⟩
  | number hn =>
      obtain ⟨c, cs, hchars, hc⟩ := hn.exists_toChars_head
      rw [toChars, hchars]
      exact startsValue_of_startsNumber hc _
  | text t =>
      rw [toChars, textChars_eq_cons]
      exact ⟨'\x22', _, rfl, rfl, by decide⟩
  | array =>
      rw [toChars]
      exact ⟨'[', _, rfl, rfl, by decide⟩
  | object =>
      rw [toChars]
      exact ⟨'\x7b', _, rfl, rfl, by decide⟩

/-- A written value is read to its end.  An item of an array costs one more step than its value, so
two steps for each character are enough. -/
def ReadsBack (v : Value) : Prop :=
  ∀ fuel rest, EndsNumber rest → 2 * v.toChars.length + 1 ≤ fuel →
    readValue fuel (v.toChars ++ rest) = some (v, rest)

end Value

/-! ### Lists of items and members -/

theorem readValue_of_startsNumber {c : Char} (hc : startsNumber c = true) (fuel : Nat)
    (cs : List Char) :
    readValue (fuel + 1) (c :: cs) =
      (readNumber (c :: cs)).map fun (n, rest) => (.number n, rest) := by
  have hspace := skipSpace_of_startsValue (startsValue_of_startsNumber hc cs)
  unfold readValue
  rw [hspace]
  split
  case h_8 =>
    cases readNumber (c :: cs) <;> rfl
  case h_1 heq => contradiction
  all_goals
    rename_i heq
    obtain ⟨rfl, -⟩ := List.cons.inj heq
    contradiction

theorem readValue_array {cs : List Char} (hcs : StartsValue cs) (fuel : Nat) :
    readValue (fuel + 1) ('[' :: cs) =
      (readItems fuel cs).map fun (items, rest) => (.array items, rest) := by
  have hspace := skipSpace_of_startsValue hcs
  obtain ⟨c, rest, rfl, -, hc⟩ := hcs
  have hopen : skipSpace ('[' :: c :: rest) = '[' :: c :: rest := rfl
  simp only [readValue, hopen, hspace]
  split
  case h_1 heq =>
    obtain ⟨rfl, -⟩ := List.cons.inj heq
    contradiction
  · cases readItems fuel (c :: rest) <;> rfl

theorem readValue_object (cs : List Char) (fuel : Nat) :
    readValue (fuel + 1) ('\x7b' :: '\x22' :: cs) =
      (readMembers fuel ('\x22' :: cs)).map fun (members, rest) => (.object members, rest) := by
  have hopen : skipSpace ('\x7b' :: '\x22' :: cs) = '\x7b' :: '\x22' :: cs := rfl
  have hquote : skipSpace ('\x22' :: cs) = '\x22' :: cs := rfl
  simp only [readValue, hopen, hquote]
  split
  case h_1 heq =>
    obtain ⟨heq, -⟩ := List.cons.inj heq
    contradiction
  · cases readMembers fuel ('\x22' :: cs) <;> rfl

theorem endsNumber_of_head {c : Char} (hc : c ∈ [',', ']', '\x7d']) (rest : List Char) :
    EndsNumber (c :: rest) := by
  intro d hd
  obtain rfl : c = d := Option.some.inj hd
  fin_cases hc <;> exact ⟨rfl, by decide⟩

theorem readItems_itemsChars {items : List Value} (hne : items ≠ [])
    (hitems : ∀ v ∈ items, v.ReadsBack) (fuel : Nat)
    (hfuel : 2 * (Value.itemsChars items).length + 2 ≤ fuel) (rest : List Char) :
    readItems fuel (Value.itemsChars items ++ ']' :: rest) = some (items, rest) := by
  induction items generalizing fuel with
  | nil => contradiction
  | cons v items ih =>
      obtain ⟨hv, hitems⟩ := List.forall_mem_cons.mp hitems
      obtain ⟨fuel, rfl⟩ := Nat.exists_eq_add_one_of_ne_zero (Nat.ne_zero_of_lt hfuel)
      cases items with
      | nil =>
          rw [Value.itemsChars] at hfuel ⊢
          have hread := hv fuel (']' :: rest) (endsNumber_of_head (by decide) rest) (by omega)
          simp [readItems, hread, skipSpace, isSpace]
      | cons w items =>
          have hlength : (Value.itemsChars (v :: w :: items)).length =
              v.toChars.length + (Value.itemsChars (w :: items)).length + 1 := by
            rw [Value.itemsChars, List.length_append, List.length_cons]
            omega
          have hread := hv fuel (',' :: (Value.itemsChars (w :: items) ++ ']' :: rest))
            (endsNumber_of_head (by decide) _) (by omega)
          have hothers := ih (List.cons_ne_nil w items) hitems fuel (by omega)
          rw [Value.itemsChars, List.append_assoc, List.cons_append]
          simp [readItems, hread, hothers, skipSpace, isSpace]

theorem readMembers_membersChars {members : List (Option String × Value)} (hne : members ≠ [])
    (hmembers : ∀ m ∈ members, m.2.ReadsBack) (fuel : Nat)
    (hfuel : 2 * (Value.membersChars members).length + 2 ≤ fuel) (rest : List Char) :
    readMembers fuel (Value.membersChars members ++ '\x7d' :: rest) = some (members, rest) := by
  induction members generalizing fuel with
  | nil => contradiction
  | cons m members ih =>
      obtain ⟨name, v⟩ := m
      obtain ⟨(hv : v.ReadsBack), hmembers⟩ := List.forall_mem_cons.mp hmembers
      obtain ⟨fuel, rfl⟩ := Nat.exists_eq_add_one_of_ne_zero (Nat.ne_zero_of_lt hfuel)
      cases members with
      | nil =>
          have hlength : (Value.membersChars [(name, v)]).length =
              (textChars name).length + v.toChars.length + 1 := by
            rw [Value.membersChars, List.length_append, List.length_cons]
            omega
          have hread := hv fuel ('\x7d' :: rest) (endsNumber_of_head (by decide) rest) (by omega)
          rw [Value.membersChars, textChars_eq_cons]
          simp [readMembers, readText_textChars, hread, skipSpace, isSpace]
      | cons m members =>
          have hlength : (Value.membersChars ((name, v) :: m :: members)).length =
              (textChars name).length + v.toChars.length +
                (Value.membersChars (m :: members)).length + 2 := by
            rw [Value.membersChars, List.length_append, List.length_cons, List.length_append,
              List.length_cons]
            omega
          have hread := hv fuel (',' :: (Value.membersChars (m :: members) ++ '\x7d' :: rest))
            (endsNumber_of_head (by decide) _) (by omega)
          have hothers := ih (List.cons_ne_nil m members) hmembers fuel (by omega)
          rw [Value.membersChars, textChars_eq_cons]
          simp [readMembers, readText_textChars, hread, hothers, skipSpace, isSpace]

namespace Value

theorem exists_itemsChars_cons (v : Value) (items : List Value) :
    ∃ cs, itemsChars (v :: items) = v.toChars ++ cs := by
  cases items with
  | nil => exact ⟨[], by rw [itemsChars, List.append_nil]⟩
  | cons w items => exact ⟨_, itemsChars.eq_3 v w items⟩

theorem exists_membersChars_cons (m : Option String × Value)
    (members : List (Option String × Value)) :
    ∃ cs, membersChars (m :: members) = '\x22' :: cs := by
  obtain ⟨name, v⟩ := m
  cases members <;> rw [membersChars, textChars_eq_cons] <;> exact ⟨_, rfl⟩

theorem readsBack_of_isRegular {v : Value} (hv : v.IsRegular) : v.ReadsBack := by
  induction hv with
  | null =>
      intro fuel rest _ hfuel
      obtain ⟨fuel, rfl⟩ := Nat.exists_eq_add_one_of_ne_zero (Nat.ne_zero_of_lt hfuel)
      simp [toChars, readValue, skipSpace, isSpace]
  | bool b =>
      intro fuel rest _ hfuel
      obtain ⟨fuel, rfl⟩ := Nat.exists_eq_add_one_of_ne_zero (Nat.ne_zero_of_lt hfuel)
      cases b <;> simp [toChars, readValue, skipSpace, isSpace]
  | @number n hn =>
      intro fuel rest hrest hfuel
      obtain ⟨fuel, rfl⟩ := Nat.exists_eq_add_one_of_ne_zero (Nat.ne_zero_of_lt hfuel)
      obtain ⟨c, cs, hchars, hc⟩ := hn.exists_toChars_head
      have hread := readNumber_toChars hn hrest
      rw [hchars] at hread
      rw [toChars, hchars, List.cons_append, readValue_of_startsNumber hc, ← List.cons_append,
        hread]
      rfl
  | text t =>
      intro fuel rest _ hfuel
      obtain ⟨fuel, rfl⟩ := Nat.exists_eq_add_one_of_ne_zero (Nat.ne_zero_of_lt hfuel)
      rw [toChars, textChars_eq_cons]
      simp [readValue, readText_textChars, skipSpace, isSpace]
  | @array items hitems ih =>
      intro fuel rest hrest hfuel
      have hlength : (array items).toChars.length = (itemsChars items).length + 2 := by
        rw [toChars, List.length_cons, List.length_append, List.length_singleton]
      obtain ⟨fuel, rfl⟩ := Nat.exists_eq_add_one_of_ne_zero (Nat.ne_zero_of_lt hfuel)
      cases items with
      | nil => simp [toChars, itemsChars, readValue, skipSpace, isSpace]
      | cons v items =>
          have hread := readItems_itemsChars (List.cons_ne_nil v items) ih fuel
            (by omega) rest
          have hstarts : StartsValue (itemsChars (v :: items) ++ ']' :: rest) := by
            obtain ⟨cs, hchars⟩ := exists_itemsChars_cons v items
            rw [hchars, List.append_assoc]
            exact (hitems v List.mem_cons_self).startsValue _
          rw [toChars, List.cons_append, List.append_assoc, List.singleton_append,
            readValue_array hstarts, hread]
          rfl
  | @object members hmembers ih =>
      intro fuel rest hrest hfuel
      have hlength : (object members).toChars.length = (membersChars members).length + 2 := by
        rw [toChars, List.length_cons, List.length_append, List.length_singleton]
      obtain ⟨fuel, rfl⟩ := Nat.exists_eq_add_one_of_ne_zero (Nat.ne_zero_of_lt hfuel)
      cases members with
      | nil => simp [toChars, membersChars, readValue, skipSpace, isSpace]
      | cons m members =>
          have hread := readMembers_membersChars (List.cons_ne_nil m members) ih fuel
            (by omega) rest
          obtain ⟨cs, hchars⟩ := exists_membersChars_cons m members
          rw [hchars, List.cons_append] at hread
          rw [toChars, List.cons_append, List.append_assoc, List.singleton_append, hchars,
            List.cons_append, readValue_object, hread]
          rfl

/-- What is written of a value with regular numbers is read as that value. -/
theorem ofString?_render {v : Value} (hv : v.IsRegular) : ofString? v.render = some v := by
  have hread := readsBack_of_isRegular hv (2 * v.toChars.length + 2) [] nofun (Nat.le_succ _)
  rw [List.append_nil] at hread
  rw [ofString?, render, String.toList_ofList, parse?, hread]
  rfl

end Value

/-! ## The numbers that are written -/

theorem isDigit_of_mem_digits {n : Nat} {c : Char} (hc : c ∈ Decimal.digits n) :
    c.isDigit = true :=
  Nat.isDigit_of_mem_toDigits (by decide) le_rfl hc

theorem digits_ne_nil (n : Nat) : Decimal.digits n ≠ [] :=
  Nat.toDigits_ne_nil

theorem digitsValue_digits (n : Nat) : digitsValue (Decimal.digits n) = n :=
  Nat.ofDigitChars_toDigits (by decide) le_rfl

theorem head?_digits_ne_zero {n : Nat} (hn : n ≠ 0) : (Decimal.digits n).head? ≠ some '0' := by
  induction n using Nat.strongRecOn with
  | _ n ih =>
      unfold Decimal.digits at ih ⊢
      by_cases hsmall : n < 10
      · have hchar : ∀ n < 10, n ≠ 0 → Nat.digitChar n ≠ '0' := by decide
        rw [Nat.toDigits_of_lt_base hsmall]
        exact fun hhead => hchar n hsmall hn (Option.some.inj hhead)
      · rw [Nat.toDigits_of_base_le (by decide) (Nat.le_of_not_lt hsmall),
          List.head?_append_of_ne_nil _ Nat.toDigits_ne_nil]
        exact ih (n / 10) (by omega) (by omega)

theorem isDigit_of_mem_zeros {n : Nat} {c : Char} (hc : c ∈ List.replicate n '0') :
    c.isDigit = true := by
  rw [List.eq_of_mem_replicate hc]
  rfl

namespace Number

theorem isRegular_ofInt (i : Int) : (ofInt i).IsRegular := by
  constructor
  case whole_ne_nil => exact digits_ne_nil _
  case whole_digits => exact fun c => isDigit_of_mem_digits
  case no_leading_zero =>
    intro hhead
    by_cases hzero : i.natAbs = 0
    · rw [ofInt, hzero]
      rfl
    · exact absurd hhead (head?_digits_ne_zero hzero)
  case part_digits => exact nofun
  case exponent_digits => exact nofun

/-- A number from digits whose first is not zero. -/
theorem isRegular_of_head? {whole part : List Char} (negative : Bool)
    {exponent : Option (Bool × List Char)} (hwhole : ∀ c ∈ whole, c.isDigit = true)
    (hne : whole ≠ []) (hhead : whole.head? ≠ some '0') (hpart : ∀ c ∈ part, c.isDigit = true)
    (hexponent : ∀ x ∈ exponent, x.2 ≠ [] ∧ ∀ c ∈ x.2, c.isDigit = true) :
    IsRegular ⟨negative, whole, part, exponent⟩ :=
  ⟨hne, hwhole, fun h => absurd h hhead, hpart, hexponent⟩

/-- A number below one. -/
theorem isRegular_of_part {part : List Char} (negative : Bool)
    (hpart : ∀ c ∈ part, c.isDigit = true) : IsRegular ⟨negative, ['0'], part, none⟩ :=
  ⟨List.cons_ne_nil _ _, fun _ => isDigit_of_mem_zeros (n := 1), fun _ => le_rfl, hpart, nofun⟩

theorem isRegular_ofDecimal (layout : Layout) (negative : Bool) (d : Decimal) :
    (ofDecimal layout negative d).IsRegular := by
  have hzeros : ∀ c ∈ ['0'], c.isDigit = true := fun _ => isDigit_of_mem_zeros (n := 1)
  by_cases hzero : d.coefficient = 0
  · rw [ofDecimal, if_pos hzero]
    exact isRegular_of_part negative hzeros
  have hdigits : ∀ c ∈ Decimal.digits d.coefficient, c.isDigit = true :=
    fun c => isDigit_of_mem_digits
  have hhead := head?_digits_ne_zero hzero
  have hne := digits_ne_nil d.coefficient
  rw [ofDecimal, if_neg hzero]
  dsimp only
  generalize Decimal.digits d.coefficient = ds at hdigits hhead hne
  generalize d.exponent + ds.length - 1 = lead
  have hfront (n : Nat) : ds.take (n + 1) ≠ [] ∧ (ds.take (n + 1)).head? ≠ some '0' := by
    rw [List.head?_take, if_neg (Nat.succ_ne_zero n)]
    exact ⟨by simpa [List.take_eq_nil_iff] using hne, hhead⟩
  have htake (n : Nat) : ∀ c ∈ ds.take n, c.isDigit = true :=
    fun c hc => hdigits c (List.mem_of_mem_take hc)
  have hdrop (n : Nat) : ∀ c ∈ ds.drop n, c.isDigit = true :=
    fun c hc => hdigits c (List.mem_of_mem_drop hc)
  split_ifs
  · refine isRegular_of_head? negative ?_ ?_ ?_ hzeros nofun
    · intro c hc
      exact (List.mem_append.mp hc).elim (hdigits c) isDigit_of_mem_zeros
    · exact List.append_ne_nil_of_left_ne_nil hne _
    · rwa [List.head?_append_of_ne_nil _ hne]
  · rw [List.splitAt_eq]
    exact isRegular_of_head? negative (htake _) (hfront _).1 (hfront _).2 (hdrop _) nofun
  · refine isRegular_of_part negative fun c hc => ?_
    exact (List.mem_append.mp hc).elim isDigit_of_mem_zeros (hdigits c)
  · refine isRegular_of_head? negative (htake _) (hfront 0).1 (hfront 0).2 (hdrop _) ?_
    intro x hx
    obtain rfl := Option.some.inj hx
    exact ⟨digits_ne_nil _, fun c => isDigit_of_mem_digits⟩

/-- An integer of 64 bits, with or without a sign, is read back. -/
theorem toInt?_ofInt {i : Int} (hlow : -2 ^ 63 ≤ i) (hhigh : i < 2 ^ 64) :
    (ofInt i).toInt? = some i := by
  have hvalue : digitsValue (ofInt i).whole = i.natAbs := digitsValue_digits _
  have hplain : (ofInt i).part = [] ∧ (ofInt i).exponent = none := ⟨rfl, rfl⟩
  have hsign : (ofInt i).negative = decide (i < 0) := rfl
  simp only [toInt?, if_pos hplain, hvalue, hsign, greatestSignificand, decide_eq_true_eq,
    Nat.pow_eq]
  split_ifs with hneg
  · exact congrArg some (by omega)
  · omega
  · exact congrArg some (by omega)
  · omega

end Number

namespace Value

theorem isRegular_ofInt (i : Int) : (ofInt i).IsRegular :=
  .number (Number.isRegular_ofInt i)

theorem isRegular_ofBinary (f : BinaryFormat) (layout : Number.Layout) (b : Binary) :
    (ofBinary f layout b).IsRegular := by
  unfold ofBinary
  split
  · exact .number (Number.isRegular_ofDecimal _ _ _)
  · exact .null

theorem isRegular_ofFloat (x : Float) : (ofFloat x).IsRegular :=
  isRegular_ofBinary _ _ _

theorem isRegular_ofSingle (x : Float32) : (ofSingle x).IsRegular :=
  isRegular_ofBinary _ _ _

theorem toIntIn?_ofInt {low high i : Int} (hi : low ≤ i ∧ i ≤ high) (hlow : -2 ^ 63 ≤ low)
    (hhigh : high < 2 ^ 64) : (ofInt i).toIntIn? low high = some i := by
  have hread := Number.toInt?_ofInt (hlow.trans hi.1) (hi.2.trans_lt hhigh)
  rw [ofInt, toIntIn?, hread]
  exact if_pos hi

end Value

end ObstacleWatch.Json
