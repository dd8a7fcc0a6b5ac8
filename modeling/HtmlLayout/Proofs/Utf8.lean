import HtmlLayout.Encoding.Decode

/-!
# Bytes of a text

Decoding undoes the encoding of text as UTF-8. The bytes of one character are read back as that
character whatever follows them, so no cut between characters has to be known. A lead byte fixes the
number of bytes and the bounds of the second one, and these bounds leave out exactly the longer
spellings, the surrogates and the numbers beyond the last character.
-/

namespace HtmlLayout.Encoding

/-! ### One byte -/

theorem startOf_two {byte : UInt8} (hlow : 0xC2 ≤ byte.toNat) (hhigh : byte.toNat < 0xE0) :
    startOf byte = .sequence { missing := 1, bits := byte.toNat % 0x20 } := by
  unfold startOf
  dsimp only
  rw [if_neg (by omega), if_neg (by omega), if_pos hhigh]

/-- The second of three bytes has bounds that rule out longer spellings and surrogates. -/
theorem startOf_three {byte : UInt8} (hlow : 0xE0 ≤ byte.toNat) (hhigh : byte.toNat < 0xF0) :
    startOf byte = .sequence
      { missing := 2
        bits := byte.toNat % 0x10
        low := if byte.toNat = 0xE0 then 0xA0 else 0x80
        high := if byte.toNat = 0xED then 0x9F else 0xBF } := by
  unfold startOf
  dsimp only
  rw [if_neg (by omega), if_neg (by omega), if_neg (by omega)]
  by_cases hfirst : byte.toNat = 0xE0
  · simp [hfirst]
  by_cases hsurrogate : byte.toNat = 0xED
  · simp [hsurrogate]
  · simp [hfirst, hsurrogate, hhigh]

/-- The second of four bytes has bounds that rule out longer spellings and numbers of no character. -/
theorem startOf_four {byte : UInt8} (hlow : 0xF0 ≤ byte.toNat) (hhigh : byte.toNat < 0xF5) :
    startOf byte = .sequence
      { missing := 3
        bits := byte.toNat % 8
        low := if byte.toNat = 0xF0 then 0x90 else 0x80
        high := if byte.toNat = 0xF4 then 0x8F else 0xBF } := by
  unfold startOf
  dsimp only
  rw [if_neg (by omega), if_neg (by omega), if_neg (by omega), if_neg (by simp; omega),
    if_neg (by simp; omega), if_neg (by omega)]
  by_cases hfirst : byte.toNat = 0xF0
  · simp [hfirst]
  by_cases hlast : byte.toNat = 0xF4
  · simp [hlast]
  · rw [if_neg (by simpa using hfirst), if_pos (by omega)]
    simp [hfirst, hlast]

theorem decodeUtf8From_sequence {byte : UInt8} {s : Sequence} (hbyte : startOf byte = .sequence s)
    (rest : List UInt8) : decodeUtf8From none (byte :: rest) = decodeUtf8From (some s) rest := by
  rw [decodeUtf8From, hbyte]

/-- A byte within its bounds goes into the sequence. -/
theorem decodeUtf8From_more {s : Sequence} {byte : UInt8} (hmissing : 1 < s.missing)
    (hlow : s.low ≤ byte.toNat) (hhigh : byte.toNat ≤ s.high) (rest : List UInt8) :
    decodeUtf8From (some s) (byte :: rest) =
      decodeUtf8From
        (some { missing := s.missing - 1, bits := s.bits * 0x40 + byte.toNat % 0x40 }) rest := by
  rw [decodeUtf8From]
  simp [hlow, hhigh, Nat.not_le.mpr hmissing]

/-- The last byte of a sequence completes its character. -/
theorem decodeUtf8From_last {s : Sequence} {byte : UInt8} (hmissing : s.missing = 1)
    (hlow : s.low ≤ byte.toNat) (hhigh : byte.toNat ≤ s.high) (rest : List UInt8) :
    decodeUtf8From (some s) (byte :: rest) =
      Char.ofNat (s.bits * 0x40 + byte.toNat % 0x40) :: decodeUtf8From none rest := by
  rw [decodeUtf8From]
  simp [hlow, hhigh, hmissing]

/-! ### One character -/

/-- The number of a character is that of no surrogate. -/
theorem toNat_bounds (c : Char) : c.toNat < 0xD800 ∨ 0xE000 ≤ c.toNat ∧ c.toNat < 0x110000 := by
  have hvalid := c.valid
  simp only [UInt32.isValidChar, Nat.isValidChar] at hvalid
  change c.val.toNat < 0xD800 ∨ 0xE000 ≤ c.val.toNat ∧ c.val.toNat < 0x110000
  omega

/-- The bytes that stand for a number, by its size. -/
inductive Spells (number : Nat) : List UInt8 → Prop where
  | one {first : UInt8} (hhigh : number < 0x80) (hfirst : first.toNat = number) : Spells number [first]
  | two {first second : UInt8} (hlow : 0x80 ≤ number) (hhigh : number < 0x800)
      (hfirst : first.toNat = number / 0x40 + 0xC0) (hsecond : second.toNat = number % 0x40 + 0x80) :
      Spells number [first, second]
  | three {first second third : UInt8} (hlow : 0x800 ≤ number) (hhigh : number < 0x10000)
      (hfirst : first.toNat = number / 0x1000 + 0xE0)
      (hsecond : second.toNat = number / 0x40 % 0x40 + 0x80)
      (hthird : third.toNat = number % 0x40 + 0x80) : Spells number [first, second, third]
  | four {first second third fourth : UInt8} (hlow : 0x10000 ≤ number)
      (hfirst : first.toNat = number / 0x40000 + 0xF0)
      (hsecond : second.toNat = number / 0x1000 % 0x40 + 0x80)
      (hthird : third.toNat = number / 0x40 % 0x40 + 0x80)
      (hfourth : fourth.toNat = number % 0x40 + 0x80) : Spells number [first, second, third, fourth]

theorem spells_encodeChar (c : Char) : Spells c.toNat (String.utf8EncodeChar c) := by
  have hbyte : ∀ {number shown : Nat}, number = shown → shown < 0x100 →
      (UInt8.ofNat number).toNat = shown := by
    intro number shown hsame hshown
    rw [UInt8.toNat_ofNat', hsame]
    exact Nat.mod_eq_of_lt hshown
  have hbounds := toNat_bounds c
  have hval : c.val.toNat = c.toNat := rfl
  unfold String.utf8EncodeChar
  dsimp only
  rw [hval]
  split
  · exact .one (by omega) (hbyte rfl (by omega))
  split
  · exact .two (by omega) (by omega) (hbyte (by omega) (by omega)) (hbyte rfl (by omega))
  split
  · exact .three (by omega) (by omega) (hbyte (by omega) (by omega)) (hbyte rfl (by omega))
      (hbyte rfl (by omega))
  · exact .four (by omega) (hbyte (by omega) (by omega)) (hbyte rfl (by omega))
      (hbyte rfl (by omega)) (hbyte rfl (by omega))

theorem decodeUtf8From_encodeChar (c : Char) (rest : List UInt8) :
    decodeUtf8From none (String.utf8EncodeChar c ++ rest) = c :: decodeUtf8From none rest := by
  have hbounds := toNat_bounds c
  have hspells := spells_encodeChar c
  generalize String.utf8EncodeChar c = bytes at hspells
  cases hspells with
  | one hhigh hfirst =>
      rw [List.cons_append, decodeUtf8From]
      simp [startOf, hfirst, hhigh]
  | @two first second hlow hhigh hfirst hsecond =>
      rw [List.cons_append, decodeUtf8From_sequence (startOf_two (by omega) (by omega)),
        List.cons_append, decodeUtf8From_last rfl (by dsimp only; omega) (by dsimp only; omega)]
      have hnumber : first.toNat % 0x20 * 0x40 + second.toNat % 0x40 = c.toNat := by omega
      rw [hnumber, Char.ofNat_toNat, List.nil_append]
  | @three first second third hlow hhigh hfirst hsecond hthird =>
      -- The bounds of the second byte depend on the first, here and in the next case.
      rw [List.cons_append, decodeUtf8From_sequence (startOf_three (by omega) (by omega)),
        List.cons_append, decodeUtf8From_more (by simp) (by dsimp only; split <;> omega)
          (by dsimp only; split <;> omega),
        List.cons_append, decodeUtf8From_last rfl (by dsimp only; omega) (by dsimp only; omega)]
      have hnumber : (first.toNat % 0x10 * 0x40 + second.toNat % 0x40) * 0x40 + third.toNat % 0x40 =
          c.toNat := by omega
      rw [hnumber, Char.ofNat_toNat, List.nil_append]
  | @four first second third fourth hlow hfirst hsecond hthird hfourth =>
      rw [List.cons_append, decodeUtf8From_sequence (startOf_four (by omega) (by omega)),
        List.cons_append, decodeUtf8From_more (by simp) (by dsimp only; split <;> omega)
          (by dsimp only; split <;> omega),
        List.cons_append, decodeUtf8From_more (by simp) (by dsimp only; omega) (by dsimp only; omega),
        List.cons_append, decodeUtf8From_last rfl (by dsimp only; omega) (by dsimp only; omega)]
      have hnumber : ((first.toNat % 8 * 0x40 + second.toNat % 0x40) * 0x40 + third.toNat % 0x40) * 0x40 +
          fourth.toNat % 0x40 = c.toNat := by omega
      rw [hnumber, Char.ofNat_toNat, List.nil_append]

/-- A character of ASCII is one byte of its number. -/
theorem encodeChar_of_lt {c : Char} (hc : c.toNat < 0x80) :
    ∃ byte, String.utf8EncodeChar c = [byte] ∧ byte.toNat = c.toNat := by
  have hspells := spells_encodeChar c
  generalize String.utf8EncodeChar c = bytes at hspells
  cases hspells with
  | one _ hfirst => exact ⟨_, rfl, hfirst⟩
  | two hlow => omega
  | three hlow => omega
  | four hlow => omega

/-- A character beyond ASCII has bytes beyond ASCII only, and no byte is one of the last two. -/
theorem encodeChar_bounds (c : Char) :
    ∀ byte ∈ String.utf8EncodeChar c, (0x80 ≤ c.toNat → 0x80 ≤ byte.toNat) ∧ byte.toNat < 0xFE := by
  have hbounds := toNat_bounds c
  have hspells := spells_encodeChar c
  generalize String.utf8EncodeChar c = bytes at hspells
  intro byte hbyte
  cases hspells with
  | one hhigh hfirst =>
      obtain rfl := List.mem_singleton.mp hbyte
      omega
  | two hlow hhigh hfirst hsecond =>
      simp only [List.mem_cons, List.not_mem_nil, or_false] at hbyte
      obtain rfl | rfl := hbyte <;> omega
  | three hlow hhigh hfirst hsecond hthird =>
      simp only [List.mem_cons, List.not_mem_nil, or_false] at hbyte
      obtain rfl | rfl | rfl := hbyte <;> omega
  | four hlow hfirst hsecond hthird hfourth =>
      simp only [List.mem_cons, List.not_mem_nil, or_false] at hbyte
      obtain rfl | rfl | rfl | rfl := hbyte <;> omega

/-! ### Whole texts -/

/-- The bytes of a text are those of its characters in order. -/
theorem toUTF8_eq_flatMap (text : String) :
    text.toUTF8.data.toList = text.toList.flatMap String.utf8EncodeChar := by
  obtain ⟨chars, rfl⟩ : ∃ chars, text = String.ofList chars := ⟨_, String.ofList_toList.symm⟩
  rw [String.toUTF8_eq_toByteArray, String.toByteArray_ofList, String.toList_ofList]
  exact List.toList_data_toByteArray

/-- Decoding undoes the encoding of a text. -/
theorem decodeUtf8_toUTF8 (text : String) : decodeUtf8 text.toUTF8.data.toList = text.toList := by
  rw [toUTF8_eq_flatMap, decodeUtf8]
  induction text.toList with
  | nil => rfl
  | cons c rest ih => rw [List.flatMap_cons, decodeUtf8From_encodeChar, ih]

end HtmlLayout.Encoding
