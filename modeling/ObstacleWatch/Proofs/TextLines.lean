import Mathlib.Data.List.Basic
import ObstacleWatch.Text.Utf8

/-!
# Lines of octets and lines of text

The octet of a line end is never part of a longer character: it cannot follow a leading octet, and a
character that takes several octets is beyond ASCII.  So a line end cuts octets only where it cuts
the text that they spell, and to decode line by line is to decode first and to split the text into
lines afterwards.
-/

namespace ObstacleWatch.Utf8

/-! ## The octet of a line end -/

theorem bits?_newline : bits? 10 = none := by decide

theorem char2?_newline (a : UInt8) : char2? a 10 = none := by
  simp [char2?, bits?_newline]

theorem char3?_newline {a b c : UInt8} (hend : b = 10 ∨ c = 10) : char3? a b c = none := by
  rcases hend with rfl | rfl <;> simp [char3?, bits?_newline]

theorem char4?_newline {a b c d : UInt8} (hend : b = 10 ∨ c = 10 ∨ d = 10) :
    char4? a b c d = none := by
  rcases hend with rfl | rfl | rfl <;> simp [char4?, bits?_newline]

theorem decode?_newline_cons (octets : List UInt8) :
    decode? (10 :: octets) = (decode? octets).map ('\n' :: ·) := by
  rw [decode?.eq_def]
  rfl

theorem bind_map_cons (first : Char) (before after : Option (List Char)) :
    ((before.map (first :: ·)).bind fun cs => after.map fun ds => cs ++ '\n' :: ds) =
      (before.bind fun cs => after.map fun ds => cs ++ '\n' :: ds).map (first :: ·) := by
  cases before <;> cases after <;> rfl

/-- The octets before and behind a line end are decoded each by itself. -/
theorem decode?_append_newline (before after : List UInt8) :
    decode? (before ++ 10 :: after) =
      (decode? before).bind fun cs => (decode? after).map fun ds => cs ++ '\n' :: ds := by
  fun_induction decode? before with
  | case1 =>
      rw [List.nil_append, decode?_newline_cons]
      rfl
  | case2 a rest hascii ih =>
      rw [List.cons_append, decode?.eq_def, bind_map_cons]
      simp only [if_pos hascii, ih]
  -- The last character lacks octets; the line end and what is behind it complete none.
  | case3 a ha =>
      rw [List.cons_append, List.nil_append, decode?.eq_def]
      simp only [if_neg ha, char2?_newline]
      rcases after with _ | ⟨c, _ | ⟨d, rest⟩⟩
      · rfl
      · simp [char3?_newline]
      · simp [char3?_newline, char4?_newline]
  | case4 a ha b rest char hchar ih =>
      rw [List.cons_append, List.cons_append, decode?.eq_def, bind_map_cons]
      simp only [if_neg ha, hchar, ih]
  | case5 a ha b hb =>
      rw [List.cons_append, List.cons_append, List.nil_append, decode?.eq_def]
      simp only [if_neg ha, hb]
      cases after <;> simp [char3?_newline, char4?_newline]
  | case6 a ha b hb c rest char hchar ih =>
      rw [List.cons_append, List.cons_append, List.cons_append, decode?.eq_def, bind_map_cons]
      simp only [if_neg ha, hb, hchar, ih]
  | case7 a ha b hb c hc =>
      rw [List.cons_append, List.cons_append, List.cons_append, List.nil_append, decode?.eq_def]
      simp [ha, hb, hc, char4?_newline]
  | case8 a ha b hb c hc d rest char hchar ih =>
      rw [List.cons_append, List.cons_append, List.cons_append, List.cons_append,
        decode?.eq_def, bind_map_cons]
      simp only [if_neg ha, hb, hc, hchar, ih]
  | case9 a ha b hb c hc d rest hd =>
      rw [List.cons_append, List.cons_append, List.cons_append, List.cons_append, decode?.eq_def]
      simp [ha, hb, hc, hd]

/-! ## Characters of several octets -/

theorem toNat_ofNat_of_isValidChar {n : Nat} (hvalid : n.isValidChar) :
    (Char.ofNat n).toNat = n := by
  rw [Char.ofNat, dif_pos hvalid]
  rfl

theorem least_le_of_char? {least n : Nat} {char : Char} (hchar : char? least n = some char) :
    least ≤ char.toNat := by
  unfold char? at hchar
  split at hchar
  · next hvalid =>
      cases hchar
      rw [toNat_ofNat_of_isValidChar hvalid.2]
      exact hvalid.1
  · contradiction

theorem le_of_char2? {a b : UInt8} {char : Char} (hchar : char2? a b = some char) :
    0x80 ≤ char.toNat := by
  unfold char2? at hchar
  split at hchar
  · contradiction
  · obtain ⟨low, -, hfound⟩ := Option.bind_eq_some_iff.mp hchar
    exact least_le_of_char? hfound

theorem le_of_char3? {a b c : UInt8} {char : Char} (hchar : char3? a b c = some char) :
    0x80 ≤ char.toNat := by
  unfold char3? at hchar
  split at hchar
  · contradiction
  · obtain ⟨high, -, hrest⟩ := Option.bind_eq_some_iff.mp hchar
    obtain ⟨low, -, hfound⟩ := Option.bind_eq_some_iff.mp hrest
    exact Nat.le_trans (by decide) (least_le_of_char? hfound)

theorem le_of_char4? {a b c d : UInt8} {char : Char} (hchar : char4? a b c d = some char) :
    0x80 ≤ char.toNat := by
  unfold char4? at hchar
  split at hchar
  · contradiction
  · obtain ⟨high, -, hrest⟩ := Option.bind_eq_some_iff.mp hchar
    obtain ⟨middle, -, hrest⟩ := Option.bind_eq_some_iff.mp hrest
    obtain ⟨low, -, hfound⟩ := Option.bind_eq_some_iff.mp hrest
    exact Nat.le_trans (by decide) (least_le_of_char? hfound)

theorem newline_ne_of_le {char : Char} (hchar : 0x80 ≤ char.toNat) : '\n' ≠ char := by
  rintro rfl
  exact absurd hchar (by decide)

theorem newline_ne_ofNat {a : UInt8} (hne : 10 ≠ a) (hascii : a.toNat < 0x80) :
    '\n' ≠ Char.ofNat a.toNat := by
  intro heq
  have hvalid : a.toNat.isValidChar := Or.inl (Nat.lt_trans hascii (by decide))
  have hvalue := congrArg Char.toNat heq
  rw [toNat_ofNat_of_isValidChar hvalid] at hvalue
  exact hne (UInt8.toNat_inj.mp hvalue)

theorem newline_notMem_of_decode? {octets : List UInt8} {text : List Char}
    (hdecode : decode? octets = some text) (hnone : 10 ∉ octets) : '\n' ∉ text := by
  fun_induction decode? octets generalizing text with
  | case1 =>
      cases hdecode
      exact List.not_mem_nil
  | case2 a rest hascii ih =>
      obtain ⟨tail, htail, rfl⟩ := Option.map_eq_some_iff.mp hdecode
      simp only [List.mem_cons, not_or] at hnone ⊢
      exact ⟨newline_ne_ofNat hnone.1 hascii, ih htail hnone.2⟩
  | case4 a ha b rest char hchar ih =>
      obtain ⟨tail, htail, rfl⟩ := Option.map_eq_some_iff.mp hdecode
      simp only [List.mem_cons, not_or] at hnone ⊢
      exact ⟨newline_ne_of_le (le_of_char2? hchar), ih htail hnone.2.2⟩
  | case6 a ha b hb c rest char hchar ih =>
      obtain ⟨tail, htail, rfl⟩ := Option.map_eq_some_iff.mp hdecode
      simp only [List.mem_cons, not_or] at hnone ⊢
      exact ⟨newline_ne_of_le (le_of_char3? hchar), ih htail hnone.2.2.2⟩
  | case8 a ha b hb c hc d rest char hchar ih =>
      obtain ⟨tail, htail, rfl⟩ := Option.map_eq_some_iff.mp hdecode
      simp only [List.mem_cons, not_or] at hnone ⊢
      exact ⟨newline_ne_of_le (le_of_char4? hchar), ih htail hnone.2.2.2.2⟩
  | case3 | case5 | case7 | case9 => contradiction

/-! ## Lines -/

/-- The texts of the lines are the lines of the text. -/
theorem mapM_decode?_splitOn (octets : List UInt8) :
    (octets.splitOn 10).mapM decode? = (decode? octets).map (·.splitOn '\n') := by
  by_cases hmem : 10 ∈ octets
  · obtain ⟨line, rest, rfl, hline⟩ := List.eq_append_cons_of_mem hmem
    have ih := mapM_decode?_splitOn rest
    rw [List.splitOn_append_cons_self_of_not_mem hline, List.mapM_cons, ih,
      decode?_append_newline]
    cases htext : decode? line with
    | none => rfl
    | some text =>
        have hsplit := newline_notMem_of_decode? htext hline
        cases decode? rest with
        | none => rfl
        | some later =>
            exact congrArg some (List.splitOn_append_cons_self_of_not_mem hsplit later).symm
  · rw [List.splitOn_eq_singleton hmem]
    cases htext : decode? octets with
    | none => simp [htext]
    | some text =>
        simp [htext, List.splitOn_eq_singleton (newline_notMem_of_decode? htext hmem)]
termination_by octets.length

end ObstacleWatch.Utf8
