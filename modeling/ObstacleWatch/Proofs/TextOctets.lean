import ObstacleWatch.Proofs.TextLines

/-!
# Every text can be read back from its octets

A character is written with its number cut into groups of six bits, and the leading octet tells how
many groups follow.  The reader tries the short forms first; the leading octet of a longer form fits
none of them, so it finds the form that was written.  The octet of a line end is written for the
line end alone.
-/

namespace ObstacleWatch.Utf8

/-! ## Octets of a character -/

section

variable {n m : Nat}

theorem toNat_octet (hn : n < 0x100) : (octet n).toNat = n :=
  UInt8.toNat_ofNat_of_lt' hn

theorem toNat_following (n : Nat) : (following n).toNat = 0x80 + n % 0x40 :=
  toNat_octet (by omega)

theorem bits?_following (n : Nat) : bits? (following n) = some (n % 0x40) := by
  have hgroup : (0x80 + n % 0x40) / 0x40 = 2 ∧ (0x80 + n % 0x40) % 0x40 = n % 0x40 := by omega
  rw [bits?, toNat_following, if_pos hgroup.1, hgroup.2]

end

variable {c : Char} {rest : List UInt8}

theorem char?_toNat {least : Nat} (hleast : least ≤ c.toNat) : char? least c.toNat = some c := by
  rw [char?, if_pos ⟨hleast, c.valid⟩, Char.ofNat_toNat]

theorem toNat_lt_max (c : Char) : c.toNat < 0x110000 := by
  rcases c.valid with hlow | ⟨-, hhigh⟩
  · exact Nat.lt_trans hlow (by decide)
  · exact hhigh

theorem char2?_eq_none {a : UInt8} (ha : a.toNat / 0x20 ≠ 6) (b : UInt8) : char2? a b = none :=
  if_pos ha

theorem char3?_eq_none {a : UInt8} (ha : a.toNat / 0x10 ≠ 14) (b d : UInt8) :
    char3? a b d = none :=
  if_pos ha

theorem decode?_ascii (hc : c.toNat < 0x80) :
    decode? (octet c.toNat :: rest) = (decode? rest).map (c :: ·) := by
  have ha := toNat_octet (n := c.toNat) (by omega)
  rw [decode?.eq_def]
  simp only [ha, if_pos hc, Char.ofNat_toNat]

theorem decode?_two (hlow : 0x80 ≤ c.toNat) (hhigh : c.toNat < 0x800) :
    decode? (octet (0xc0 + c.toNat / 0x40) :: following c.toNat :: rest) =
      (decode? rest).map (c :: ·) := by
  have ha := toNat_octet (n := 0xc0 + c.toNat / 0x40) (by omega)
  have hchar : char2? (octet (0xc0 + c.toNat / 0x40)) (following c.toNat) = some c := by
    have hvalue : (0xc0 + c.toNat / 0x40) % 0x20 * 0x40 + c.toNat % 0x40 = c.toNat := by omega
    have hlead : ¬(0xc0 + c.toNat / 0x40) / 0x20 ≠ 6 := by omega
    rw [char2?, ha, if_neg hlead]
    simp only [bits?_following, Option.bind_eq_bind, Option.bind_some, hvalue, char?_toNat hlow]
  rw [decode?.eq_def]
  simp only [ha, if_neg (show ¬0xc0 + c.toNat / 0x40 < 0x80 by omega), hchar]

theorem decode?_three (hlow : 0x800 ≤ c.toNat) (hhigh : c.toNat < 0x10000) :
    decode? (octet (0xe0 + c.toNat / 0x1000) :: following (c.toNat / 0x40) :: following c.toNat ::
      rest) = (decode? rest).map (c :: ·) := by
  have ha := toNat_octet (n := 0xe0 + c.toNat / 0x1000) (by omega)
  have htwo (b : UInt8) : char2? (octet (0xe0 + c.toNat / 0x1000)) b = none :=
    char2?_eq_none (by omega) b
  have hchar : char3? (octet (0xe0 + c.toNat / 0x1000)) (following (c.toNat / 0x40))
      (following c.toNat) = some c := by
    have hvalue : ((0xe0 + c.toNat / 0x1000) % 0x10 * 0x40 + c.toNat / 0x40 % 0x40) * 0x40 +
        c.toNat % 0x40 = c.toNat := by omega
    have hlead : ¬(0xe0 + c.toNat / 0x1000) / 0x10 ≠ 14 := by omega
    rw [char3?, ha, if_neg hlead]
    simp only [bits?_following, Option.bind_eq_bind, Option.bind_some, hvalue, char?_toNat hlow]
  rw [decode?.eq_def]
  simp only [ha, if_neg (show ¬0xe0 + c.toNat / 0x1000 < 0x80 by omega), htwo, hchar]

theorem decode?_four (hlow : 0x10000 ≤ c.toNat) :
    decode? (octet (0xf0 + c.toNat / 0x40000) :: following (c.toNat / 0x1000) ::
      following (c.toNat / 0x40) :: following c.toNat :: rest) = (decode? rest).map (c :: ·) := by
  have hhigh := toNat_lt_max c
  have ha := toNat_octet (n := 0xf0 + c.toNat / 0x40000) (by omega)
  have htwo (b : UInt8) : char2? (octet (0xf0 + c.toNat / 0x40000)) b = none :=
    char2?_eq_none (by omega) b
  have hthree (b d : UInt8) : char3? (octet (0xf0 + c.toNat / 0x40000)) b d = none :=
    char3?_eq_none (by omega) b d
  have hchar : char4? (octet (0xf0 + c.toNat / 0x40000)) (following (c.toNat / 0x1000))
      (following (c.toNat / 0x40)) (following c.toNat) = some c := by
    have hvalue : (((0xf0 + c.toNat / 0x40000) % 0x08 * 0x40 + c.toNat / 0x1000 % 0x40) * 0x40 +
        c.toNat / 0x40 % 0x40) * 0x40 + c.toNat % 0x40 = c.toNat := by omega
    have hlead : ¬(0xf0 + c.toNat / 0x40000) / 0x08 ≠ 30 := by omega
    rw [char4?, ha, if_neg hlead]
    simp only [bits?_following, Option.bind_eq_bind, Option.bind_some, hvalue, char?_toNat hlow]
  rw [decode?.eq_def]
  simp only [ha, if_neg (show ¬0xf0 + c.toNat / 0x40000 < 0x80 by omega), htwo, hthree, hchar]

theorem decode?_encodeChar_append (c : Char) (rest : List UInt8) :
    decode? (encodeChar c ++ rest) = (decode? rest).map (c :: ·) := by
  unfold encodeChar
  dsimp only
  split_ifs with hone htwo hthree
  · exact decode?_ascii hone
  · exact decode?_two (Nat.le_of_not_lt hone) htwo
  · exact decode?_three (Nat.le_of_not_lt htwo) hthree
  · exact decode?_four (Nat.le_of_not_lt hthree)

/-! ## Texts -/

theorem decode?_encode (text : List Char) : decode? (encode text) = some text := by
  induction text with
  | nil => rfl
  | cons c text ih => rw [encode, List.flatMap_cons, decode?_encodeChar_append, ← encode, ih,
      Option.map_some]

theorem encode_append (first second : List Char) :
    encode (first ++ second) = encode first ++ encode second :=
  List.flatMap_append

theorem newline_notMem_encodeChar (hc : c ≠ '\n') : 10 ∉ encodeChar c := by
  have hne : c.toNat ≠ 10 := fun heq => hc (Char.toNat_inj.mp heq)
  have hmax := toNat_lt_max c
  have hoctet {n : Nat} (hn : n < 0x100) (hten : n ≠ 10) : (10 : UInt8) ≠ octet n := fun heq =>
    hten ((toNat_octet hn).symm.trans (congrArg UInt8.toNat heq).symm)
  have hfollowing (n : Nat) : (10 : UInt8) ≠ following n := hoctet (by omega) (by omega)
  unfold encodeChar
  dsimp only
  split_ifs with hone htwo hthree <;>
    simp only [List.mem_cons, List.not_mem_nil, or_false, hfollowing]
  · exact hoctet (by omega) hne
  · exact hoctet (by omega) (by omega)
  · exact hoctet (by omega) (by omega)
  · exact hoctet (by omega) (by omega)

/-- The octet of a line end is written for no other character. -/
theorem newline_notMem_encode {text : List Char} (htext : '\n' ∉ text) : 10 ∉ encode text := by
  intro hmem
  obtain ⟨c, hc, hoctet⟩ := List.mem_flatMap.mp hmem
  exact newline_notMem_encodeChar (ne_of_mem_of_not_mem hc htext) hoctet

end ObstacleWatch.Utf8
