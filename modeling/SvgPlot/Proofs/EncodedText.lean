import SvgPlot.Text.Utf8

/-!
# Text and its bytes

A text written in UTF-8 is read back as it was (`decodeUtf8_encodeUtf8`). The reader takes the bytes of one character
after another (`decodeFrom_utf8EncodeChar`): a character of more than one byte begins with a byte that says how many
follow and how the next one is bounded, and each of these bytes carries six bits. With these bounds no other bytes are
read (`exists_char_of_decodeFrom`), so bytes that are read as a text are the bytes of that text (`decodeUtf8_eq_ok_iff`).
-/

namespace SvgPlot.Text

/-! ## The bytes of a text -/

theorem toList_loop (bytes : ByteArray) (index : Nat) (seen : List UInt8) :
    ByteArray.toList.loop bytes index seen = seen.reverse ++ bytes.data.toList.drop index := by
  fun_induction ByteArray.toList.loop bytes index seen with
  | case1 index seen hindex ih =>
    have hlength : index < bytes.data.toList.length := by simpa using hindex
    have hget : bytes.get! index = bytes.data.toList[index] := by
      obtain ⟨data⟩ := bytes
      exact getElem!_pos data index hindex
    rw [ih, hget, List.reverse_cons, List.append_assoc, List.singleton_append, ← List.drop_eq_getElem_cons]
  | case2 index seen hindex =>
    have hlength : bytes.data.toList.length ≤ index := by simpa using hindex
    rw [List.drop_eq_nil_of_le hlength, List.append_nil]

theorem encodeUtf8_eq (s : String) : encodeUtf8 s = s.toList.flatMap String.utf8EncodeChar := by
  have hbytes : s.toUTF8 = s.toList.utf8Encode := String.utf8Encode_toList.symm
  rw [encodeUtf8, ByteArray.toList, toList_loop, hbytes, List.utf8Encode, List.toList_data_toByteArray]
  rfl

/-! ## Reading one character -/

/-- A byte that carries six bits is taken into a character of which it is not the last. -/
theorem decodeFrom_middle {index value low high left taken : Nat} {seen : List Char} {b : Nat} {rest : List UInt8}
    (hb : b < 256) (hlow : low ≤ b) (hhigh : b ≤ high) (hleft : 1 < left) :
    decodeFrom index seen (some ⟨value, low, high, left, taken⟩) (UInt8.ofNat b :: rest) =
      decodeFrom index seen (some ⟨value * 64 + (b - 0x80), 0x80, 0xbf, left - 1, taken + 1⟩) rest := by
  have hbyte : (UInt8.ofNat b).toNat = b := UInt8.toNat_ofNat_of_lt' hb
  rw [decodeFrom]
  simp only [hbyte, if_pos (And.intro hlow hhigh), if_neg (Nat.not_le.2 hleft)]

/-- The last byte of a character completes it. -/
theorem decodeFrom_last {index value low high taken : Nat} {seen : List Char} {b : Nat} {rest : List UInt8}
    (hb : b < 256) (hlow : low ≤ b) (hhigh : b ≤ high) :
    decodeFrom index seen (some ⟨value, low, high, 1, taken⟩) (UInt8.ofNat b :: rest) =
      decodeFrom (index + taken + 1) (Char.ofNat (value * 64 + (b - 0x80)) :: seen) none rest := by
  have hbyte : (UInt8.ofNat b).toNat = b := UInt8.toNat_ofNat_of_lt' hb
  rw [decodeFrom]
  simp only [hbyte, if_pos (And.intro hlow hhigh), if_pos (Nat.le_refl 1)]

/-- The first byte of a character of more than one byte. -/
theorem decodeFrom_lead {index : Nat} {seen : List Char} {b : Nat} {p : PartialChar} {rest : List UInt8}
    (hb : b < 256) (hlead : PartialChar.ofLead? b = some p) :
    decodeFrom index seen none (UInt8.ofNat b :: rest) = decodeFrom index seen (some p) rest := by
  have hbyte : (UInt8.ofNat b).toNat = b := UInt8.toNat_ofNat_of_lt' hb
  have hnot : ¬b < 0x80 := by
    intro hlt
    have hnone : PartialChar.ofLead? b = none := by
      simp only [PartialChar.ofLead?]
      repeat rw [if_neg (by omega)]
    rw [hnone] at hlead
    cases hlead
  rw [decodeFrom]
  simp only [hbyte, if_neg hnot, hlead]

/-- The numbers of characters leave out the surrogates and end at `0x10ffff`. -/
theorem toNat_valid (c : Char) : c.toNat < 0xd800 ∨ 0xdfff < c.toNat ∧ c.toNat < 0x110000 := c.valid

/-- The first byte of three; the second is bounded more tightly after `0xe0` and `0xed`. -/
theorem exists_ofLead?_three {n : Nat} (hlong : 0x800 ≤ n) (hshort : n < 0x10000) (hvalid : n < 0xd800 ∨ 0xdfff < n) :
    ∃ low high, PartialChar.ofLead? (n / 4096 % 16 + 224) = some ⟨n / 4096 % 16, low, high, 2, 1⟩ ∧
      low ≤ n / 64 % 64 + 128 ∧ n / 64 % 64 + 128 ≤ high := by
  rw [PartialChar.ofLead?, if_neg (by omega)]
  by_cases h0 : n / 4096 % 16 + 224 = 0xe0
  · have hfirst : n / 4096 % 16 = 0 := by omega
    rw [if_pos h0]
    exact ⟨0xa0, 0xbf, by rw [hfirst], by omega, by omega⟩
  · rw [if_neg h0]
    by_cases hd : n / 4096 % 16 + 224 = 0xed
    · have hfirst : n / 4096 % 16 = 0xd := by omega
      rw [if_pos hd]
      exact ⟨0x80, 0x9f, by rw [hfirst], by omega, by omega⟩
    · rw [if_neg hd, if_pos (by omega)]
      exact ⟨0x80, 0xbf, by rw [Nat.add_sub_cancel], by omega, by omega⟩

/-- The first byte of four; the second is bounded more tightly after `0xf0` and `0xf4`. -/
theorem exists_ofLead?_four {n : Nat} (hlong : 0x10000 ≤ n) (hshort : n < 0x110000) :
    ∃ low high, PartialChar.ofLead? (n / 262144 % 8 + 240) = some ⟨n / 262144 % 8, low, high, 3, 1⟩ ∧
      low ≤ n / 4096 % 64 + 128 ∧ n / 4096 % 64 + 128 ≤ high := by
  simp only [PartialChar.ofLead?]
  rw [if_neg (by omega), if_neg (by omega), if_neg (by omega), if_neg (by omega)]
  by_cases h0 : n / 262144 % 8 + 240 = 0xf0
  · have hfirst : n / 262144 % 8 = 0 := by omega
    rw [if_pos h0]
    exact ⟨0x90, 0xbf, by rw [hfirst], by omega, by omega⟩
  · rw [if_neg h0]
    by_cases h4 : n / 262144 % 8 + 240 = 0xf4
    · have hfirst : n / 262144 % 8 = 4 := by omega
      rw [if_neg (by omega), if_pos h4]
      exact ⟨0x80, 0x8f, by rw [hfirst], by omega, by omega⟩
    · rw [if_pos (by omega)]
      exact ⟨0x80, 0xbf, by rw [Nat.add_sub_cancel], by omega, by omega⟩

/-- The reader takes the bytes of a character as that character. -/
theorem decodeFrom_utf8EncodeChar (c : Char) (index : Nat) (seen : List Char) (rest : List UInt8) :
    decodeFrom index seen none (String.utf8EncodeChar c ++ rest) =
      decodeFrom (index + (String.utf8EncodeChar c).length) (c :: seen) none rest := by
  have hc : Char.ofNat c.toNat = c := Char.ofNat_toNat c
  have hvalid := toNat_valid c
  have hnat : c.val.toNat = c.toNat := rfl
  simp only [String.utf8EncodeChar, hnat]
  generalize c.toNat = n at hc hvalid
  subst hc
  split
  · -- one byte
    rename_i hn
    have hbyte : (UInt8.ofNat n).toNat = n := UInt8.toNat_ofNat_of_lt' (show n < 256 by omega)
    rw [List.cons_append, List.nil_append, decodeFrom]
    simp only [hbyte, if_pos (show n < 0x80 by omega)]
    rfl
  split
  · -- two bytes
    rename_i hone htwo
    have hlead : PartialChar.ofLead? (n / 64 % 32 + 192) = some ⟨n / 64 % 32 + 192 - 0xc0, 0x80, 0xbf, 1, 1⟩ := by
      rw [PartialChar.ofLead?, if_pos (by omega)]
    rw [List.cons_append, List.cons_append, List.nil_append, decodeFrom_lead (by omega) hlead,
      decodeFrom_last (by omega) (by omega) (by omega)]
    have hvalue : (n / 64 % 32 + 192 - 0xc0) * 64 + (n % 64 + 128 - 0x80) = n := by omega
    rw [hvalue]
    rfl
  split
  · -- three bytes
    rename_i hone htwo hthree
    obtain ⟨low, high, hlead, hlow, hhigh⟩ := exists_ofLead?_three (n := n) (by omega) (by omega) (by omega)
    rw [List.cons_append, List.cons_append, List.cons_append, List.nil_append, decodeFrom_lead (by omega) hlead,
      decodeFrom_middle (by omega) hlow hhigh (by omega), decodeFrom_last (by omega) (by omega) (by omega)]
    have hvalue : (n / 4096 % 16 * 64 + (n / 64 % 64 + 128 - 0x80)) * 64 + (n % 64 + 128 - 0x80) = n := by omega
    rw [hvalue]
    rfl
  · -- four bytes
    rename_i hone htwo hthree
    obtain ⟨low, high, hlead, hlow, hhigh⟩ := exists_ofLead?_four (n := n) (by omega) (by omega)
    rw [List.cons_append, List.cons_append, List.cons_append, List.cons_append, List.nil_append,
      decodeFrom_lead (by omega) hlead, decodeFrom_middle (by omega) hlow hhigh (by omega),
      decodeFrom_middle (by omega) (by omega) (by omega) (by omega), decodeFrom_last (by omega) (by omega) (by omega)]
    have hvalue : ((n / 262144 % 8 * 64 + (n / 4096 % 64 + 128 - 0x80)) * 64 + (n / 64 % 64 + 128 - 0x80)) * 64 +
        (n % 64 + 128 - 0x80) = n := by omega
    rw [hvalue]
    rfl

/-! ## Reading a text -/

theorem decodeFrom_flatMap (cs : List Char) : ∀ (index : Nat) (seen : List Char),
    decodeFrom index seen none (cs.flatMap String.utf8EncodeChar) = .ok (seen.reverse ++ cs) := by
  induction cs with
  | nil =>
    intro index seen
    rw [List.flatMap_nil, decodeFrom, List.append_nil]
  | cons c rest ih =>
    intro index seen
    rw [List.flatMap_cons, decodeFrom_utf8EncodeChar, ih, List.reverse_cons, List.append_assoc, List.singleton_append]

/-- The bytes of a text are read as that text. -/
theorem decodeUtf8_encodeUtf8 (s : String) : decodeUtf8 (encodeUtf8 s) = .ok s := by
  rw [decodeUtf8, encodeUtf8_eq, decodeFrom_flatMap, List.reverse_nil, List.nil_append]
  exact congrArg Except.ok String.ofList_toList

/-! ## Bytes that are read -/

section

variable {index : Nat} {seen cs : List Char} {bytes : List UInt8}

/-- A character that is begun goes on with a byte within its bounds. -/
theorem exists_middle_of_decodeFrom {value low high left taken : Nat} (hleft : 1 < left)
    (h : decodeFrom index seen (some ⟨value, low, high, left, taken⟩) bytes = .ok cs) :
    ∃ b rest, bytes = b :: rest ∧ low ≤ b.toNat ∧ b.toNat ≤ high ∧
      decodeFrom index seen (some ⟨value * 64 + (b.toNat - 0x80), 0x80, 0xbf, left - 1, taken + 1⟩) rest = .ok cs := by
  cases bytes with
  | nil => cases h
  | cons b rest =>
    simp only [decodeFrom, if_neg (Nat.not_le.2 hleft)] at h
    split at h
    · rename_i hbounds
      exact ⟨b, rest, rfl, hbounds.1, hbounds.2, h⟩
    · cases h

/-- It ends with a byte within its bounds, and is read. -/
theorem exists_last_of_decodeFrom {value low high taken : Nat}
    (h : decodeFrom index seen (some ⟨value, low, high, 1, taken⟩) bytes = .ok cs) :
    ∃ b rest, bytes = b :: rest ∧ low ≤ b.toNat ∧ b.toNat ≤ high ∧
      decodeFrom (index + taken + 1) (Char.ofNat (value * 64 + (b.toNat - 0x80)) :: seen) none rest = .ok cs := by
  cases bytes with
  | nil => cases h
  | cons b rest =>
    simp only [decodeFrom, if_pos (Nat.le_refl 1)] at h
    split at h
    · rename_i hbounds
      exact ⟨b, rest, rfl, hbounds.1, hbounds.2, h⟩
    · cases h

/-- A character of more than one byte begins with a byte that says how many there are and how the next one is bounded. -/
theorem PartialChar.cases_of_ofLead? {b : Nat} {p : PartialChar} (h : ofLead? b = some p) :
    (p = ⟨b - 0xc0, 0x80, 0xbf, 1, 1⟩ ∧ 0xc2 ≤ b ∧ b ≤ 0xdf) ∨
    (∃ low high, p = ⟨b - 0xe0, low, high, 2, 1⟩ ∧ 0xe0 ≤ b ∧ b ≤ 0xef ∧ 0x80 ≤ low ∧ high ≤ 0xbf ∧
      (b = 0xe0 → 0xa0 ≤ low) ∧ (b = 0xed → high ≤ 0x9f)) ∨
    ∃ low high, p = ⟨b - 0xf0, low, high, 3, 1⟩ ∧ 0xf0 ≤ b ∧ b ≤ 0xf4 ∧ 0x80 ≤ low ∧ high ≤ 0xbf ∧
      (b = 0xf0 → 0x90 ≤ low) ∧ (b = 0xf4 → high ≤ 0x8f) := by
  unfold ofLead? at h
  split at h
  · rename_i hb
    exact .inl ⟨(Option.some.inj h).symm, hb⟩
  split at h
  · rename_i hb
    exact .inr (.inl ⟨0xa0, 0xbf, by rw [← Option.some.inj h, hb], by omega⟩)
  split at h
  · rename_i hb
    exact .inr (.inl ⟨0x80, 0x9f, by rw [← Option.some.inj h, hb], by omega⟩)
  split at h
  · exact .inr (.inl ⟨0x80, 0xbf, (Option.some.inj h).symm, by omega⟩)
  split at h
  · rename_i hb
    exact .inr (.inr ⟨0x90, 0xbf, by rw [← Option.some.inj h, hb], by omega⟩)
  split at h
  · exact .inr (.inr ⟨0x80, 0xbf, (Option.some.inj h).symm, by omega⟩)
  split at h
  · rename_i hb
    exact .inr (.inr ⟨0x80, 0x8f, by rw [← Option.some.inj h, hb], by omega⟩)
  · cases h

/-- The bytes of the character with a number that is not that of a surrogate. -/
theorem utf8EncodeChar_ofNat {n : Nat} (h : n < 0xd800 ∨ 0xdfff < n ∧ n < 0x110000) :
    String.utf8EncodeChar (Char.ofNat n) =
      if n ≤ 0x7f then [UInt8.ofNat n]
      else if n ≤ 0x7ff then [UInt8.ofNat (n / 64 % 32 + 192), UInt8.ofNat (n % 64 + 128)]
      else if n ≤ 0xffff then
        [UInt8.ofNat (n / 4096 % 16 + 224), UInt8.ofNat (n / 64 % 64 + 128), UInt8.ofNat (n % 64 + 128)]
      else
        [UInt8.ofNat (n / 262144 % 8 + 240), UInt8.ofNat (n / 4096 % 64 + 128), UInt8.ofNat (n / 64 % 64 + 128),
          UInt8.ofNat (n % 64 + 128)] := by
  have hnat : (Char.ofNat n).val.toNat = n := by
    have hvalid : n.isValidChar := h
    rw [Char.ofNat, dif_pos hvalid]
    rfl
  rw [String.utf8EncodeChar, hnat]

theorem ofNat_eq_of_toNat {b : UInt8} {n : Nat} (h : b.toNat = n) : UInt8.ofNat n = b := by
  rw [← h, UInt8.ofNat_toNat]

/-- The reader takes the bytes of one character, and then the rest. -/
theorem exists_char_of_decodeFrom {b : UInt8} {rest : List UInt8}
    (h : decodeFrom index seen none (b :: rest) = .ok cs) :
    ∃ c after index, b :: rest = String.utf8EncodeChar c ++ after ∧
      decodeFrom index (c :: seen) none after = .ok cs := by
  simp only [decodeFrom] at h
  split at h
  · rename_i hone
    refine ⟨_, rest, _, ?_, h⟩
    rw [utf8EncodeChar_ofNat (by omega), if_pos (by omega), UInt8.ofNat_toNat]
    rfl
  · rename_i hmore
    split at h
    · cases h
    rename_i p hlead
    obtain ⟨rfl, hfirst⟩ | ⟨low, high, rfl, hfirst⟩ | ⟨low, high, rfl, hfirst⟩ := PartialChar.cases_of_ofLead? hlead
    · -- two bytes
      obtain ⟨b1, after, rfl, hb1, hb1', h⟩ := exists_last_of_decodeFrom h
      refine ⟨_, after, _, ?_, h⟩
      rw [utf8EncodeChar_ofNat (by omega), if_neg (by omega), if_pos (by omega),
        ofNat_eq_of_toNat (b := b) (by omega), ofNat_eq_of_toNat (b := b1) (by omega)]
      rfl
    · -- three bytes
      obtain ⟨b1, rest, rfl, hb1, hb1', h⟩ := exists_middle_of_decodeFrom (by omega) h
      obtain ⟨b2, after, rfl, hb2, hb2', h⟩ := exists_last_of_decodeFrom h
      refine ⟨_, after, _, ?_, h⟩
      rw [utf8EncodeChar_ofNat (by omega), if_neg (by omega), if_neg (by omega), if_pos (by omega),
        ofNat_eq_of_toNat (b := b) (by omega), ofNat_eq_of_toNat (b := b1) (by omega),
        ofNat_eq_of_toNat (b := b2) (by omega)]
      rfl
    · -- four bytes
      obtain ⟨b1, rest, rfl, hb1, hb1', h⟩ := exists_middle_of_decodeFrom (by omega) h
      obtain ⟨b2, rest, rfl, hb2, hb2', h⟩ := exists_middle_of_decodeFrom (by omega) h
      obtain ⟨b3, after, rfl, hb3, hb3', h⟩ := exists_last_of_decodeFrom h
      refine ⟨_, after, _, ?_, h⟩
      rw [utf8EncodeChar_ofNat (by omega), if_neg (by omega), if_neg (by omega), if_neg (by omega),
        ofNat_eq_of_toNat (b := b) (by omega), ofNat_eq_of_toNat (b := b1) (by omega),
        ofNat_eq_of_toNat (b := b2) (by omega), ofNat_eq_of_toNat (b := b3) (by omega)]
      rfl

end

/-- What is read are the bytes of characters. -/
theorem exists_of_decodeFrom {index : Nat} {seen cs : List Char} : ∀ {bytes : List UInt8},
    decodeFrom index seen none bytes = .ok cs →
      ∃ more, cs = seen.reverse ++ more ∧ bytes = more.flatMap String.utf8EncodeChar
  | [], h => by
    rw [decodeFrom, Except.ok.injEq] at h
    exact ⟨[], by rw [List.append_nil, h], rfl⟩
  | b :: rest, h => by
    obtain ⟨c, after, _, hbytes, hafter⟩ := exists_char_of_decodeFrom h
    have hshorter : after.length < (b :: rest).length := by
      rw [hbytes, List.length_append, String.length_utf8EncodeChar]
      have := c.utf8Size_pos
      omega
    obtain ⟨more, hcs, hmore⟩ := exists_of_decodeFrom hafter
    refine ⟨c :: more, ?_, ?_⟩
    · rw [hcs, List.reverse_cons, List.append_assoc, List.singleton_append]
    · rw [hbytes, hmore, List.flatMap_cons]
termination_by bytes => bytes.length
decreasing_by exact hshorter

/-- Bytes are read as a text just if they are its bytes. -/
theorem decodeUtf8_eq_ok_iff {bytes : List UInt8} {s : String} : decodeUtf8 bytes = .ok s ↔ encodeUtf8 s = bytes := by
  constructor
  · intro h
    rw [decodeUtf8] at h
    cases hread : decodeFrom 0 [] none bytes with
    | error fault =>
      rw [hread] at h
      cases h
    | ok cs =>
      rw [hread] at h
      cases h
      obtain ⟨more, rfl, rfl⟩ := exists_of_decodeFrom hread
      rw [encodeUtf8_eq, String.toList_ofList]
  · rintro rfl
    exact decodeUtf8_encodeUtf8 s

end SvgPlot.Text
