import ObstacleWatch.Proofs.JsonRoundTrip

/-!
# The characters of written values

A control character in a text is spelled by an escape, and nothing else in a written value has one.
So a value stands on one line, whatever its texts are.
-/

namespace ObstacleWatch.Json

/-! ## No control characters -/

/-- A character that is no control character. -/
def IsPlain (c : Char) : Prop :=
  32 ≤ c.toNat

instance (c : Char) : Decidable (IsPlain c) :=
  inferInstanceAs (Decidable (32 ≤ c.toNat))

theorem isPlain_of_mem_escapeChar {c d : Char} (hd : d ∈ escapeChar c) : IsPlain d := by
  by_cases hc : c ∈ shortlyEscaped
  · have hletters : ∀ c ∈ shortlyEscaped, ∀ d ∈ escapeChar c, IsPlain d := by
      simp [shortlyEscaped, escapeChar, IsPlain]
    exact hletters c hc d hd
  have hdigits : ∀ n < 16, IsPlain (hexDigit n) := by decide
  rw [escapeChar_of_notMem hc] at hd
  split_ifs at hd with hcontrol
  · simp only [List.mem_cons, List.not_mem_nil, or_false] at hd
    obtain rfl | rfl | rfl | rfl | rfl | rfl := hd
    · decide
    · decide
    · decide
    · decide
    · exact hdigits _ (by omega)
    · exact hdigits _ (by omega)
  · obtain rfl := List.mem_singleton.mp hd
    exact Nat.le_of_not_lt hcontrol

theorem isPlain_textChars (t : Option String) : ∀ c ∈ textChars t, IsPlain c := by
  cases t with
  | none => simp [textChars, IsPlain]
  | some s =>
      simp only [textChars, List.forall_mem_cons, List.forall_mem_append, List.mem_flatMap]
      refine ⟨by decide, ?_, by decide, List.forall_mem_nil _⟩
      rintro c ⟨d, -, hd⟩
      exact isPlain_of_mem_escapeChar hd

theorem isPlain_of_isDigit {c : Char} (hc : c.isDigit = true) : IsPlain c := by
  simp only [Char.isDigit, Bool.and_eq_true, decide_eq_true_eq, ge_iff_le] at hc
  exact Nat.le_trans (by decide) (show 48 ≤ c.toNat from hc.1)

theorem Number.IsRegular.isPlain {n : Number} (hn : n.IsRegular) : ∀ c ∈ n.toChars, IsPlain c := by
  obtain ⟨negative, whole, part, exponent⟩ := n
  have hsign : ∀ c ∈ if negative = true then ['-'] else [], IsPlain c := by
    cases negative <;> simp [IsPlain]
  have hpart : ∀ c ∈ partChars part, IsPlain c := by
    unfold partChars
    split_ifs
    · exact nofun
    · exact List.forall_mem_cons.mpr
        ⟨by decide, fun c hc => isPlain_of_isDigit (hn.part_digits c hc)⟩
  have hexponent : ∀ c ∈ exponentChars exponent, IsPlain c := by
    rcases exponent with _ | ⟨negative, ds⟩
    · exact nofun
    · simp only [exponentChars, List.forall_mem_cons]
      refine ⟨by decide, by cases negative <;> decide, fun c hc => ?_⟩
      exact isPlain_of_isDigit ((hn.exponent_digits _ rfl).2 c hc)
  simp only [Number.toChars_eq, List.forall_mem_append]
  exact ⟨hsign, fun c hc => isPlain_of_isDigit (hn.whole_digits c hc), hpart, hexponent⟩

namespace Value

theorem isPlain_itemsChars {items : List Value}
    (hitems : ∀ v ∈ items, ∀ c ∈ v.toChars, IsPlain c) : ∀ c ∈ itemsChars items, IsPlain c := by
  induction items with
  | nil => exact nofun
  | cons v items ih =>
      obtain ⟨hv, hitems⟩ := List.forall_mem_cons.mp hitems
      cases items with
      | nil => simpa only [itemsChars] using hv
      | cons w items =>
          simp only [itemsChars, List.forall_mem_append, List.forall_mem_cons]
          exact ⟨hv, by decide, ih hitems⟩

theorem isPlain_membersChars {members : List (Option String × Value)}
    (hmembers : ∀ m ∈ members, ∀ c ∈ m.2.toChars, IsPlain c) :
    ∀ c ∈ membersChars members, IsPlain c := by
  induction members with
  | nil => exact nofun
  | cons m members ih =>
      obtain ⟨name, v⟩ := m
      obtain ⟨hv, hmembers⟩ := List.forall_mem_cons.mp hmembers
      have hname := isPlain_textChars name
      cases members with
      | nil =>
          simp only [membersChars, List.forall_mem_append, List.forall_mem_cons]
          exact ⟨hname, by decide, hv⟩
      | cons m members =>
          simp only [membersChars, List.forall_mem_append, List.forall_mem_cons]
          exact ⟨hname, by decide, hv, by decide, ih hmembers⟩

/-- A value is written without control characters, whatever characters its texts have. -/
theorem IsRegular.isPlain {v : Value} (hv : v.IsRegular) : ∀ c ∈ v.toChars, IsPlain c := by
  induction hv with
  | null => simp [toChars, IsPlain]
  | bool b => cases b <;> simp [toChars, IsPlain]
  | number hn => exact hn.isPlain
  | text t => exact isPlain_textChars t
  | array _ ih =>
      simp only [toChars, List.forall_mem_append, List.forall_mem_cons]
      exact ⟨by decide, isPlain_itemsChars ih, by decide, List.forall_mem_nil _⟩
  | object _ ih =>
      simp only [toChars, List.forall_mem_append, List.forall_mem_cons]
      exact ⟨by decide, isPlain_membersChars ih, by decide, List.forall_mem_nil _⟩

theorem IsRegular.newline_notMem {v : Value} (hv : v.IsRegular) : '\n' ∉ v.toChars := by
  intro hmem
  exact absurd (hv.isPlain '\n' hmem) (by decide)

end Value

end ObstacleWatch.Json
