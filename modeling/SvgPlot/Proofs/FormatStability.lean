import SvgPlot.Proofs.FileFormat

/-!
# Formats that stay

The format of some bytes is told from their beginning, so it stays when more bytes come after them, and no part of a file
tells another format than the whole (`Format.of?_append`). Plain markup begins with a blank or a tag, and what is packed
begins with two bytes that no text begins with. So whatever is read as markup is plain, and read again it stays the same
(`readMarkup_again`).
-/

namespace SvgPlot.Source

/-! ## How bytes of each format begin -/

theorem of?_eq_compressed_iff {bytes : List UInt8} :
    Format.of? bytes = some .compressed ↔ gzipMagic <+: bytes := by
  rw [Format.of?, ← List.isPrefixOf_iff_prefix]
  split
  · simp [*]
  · split <;> simp [*]

/-- Plain markup begins with a byte order mark, a blank or a tag, which no packed bytes do. -/
theorem not_magic_of_looksPlain {bytes : List UInt8} (h : looksPlain bytes = true) : ¬gzipMagic <+: bytes := by
  rintro ⟨rest, rfl⟩
  have hplain : looksPlain (gzipMagic ++ rest) = false := rfl
  rw [hplain] at h
  cases h

theorem of?_eq_plain_iff {bytes : List UInt8} : Format.of? bytes = some .plain ↔ looksPlain bytes = true := by
  constructor
  · exact looksPlain_of_plain
  · intro h
    rw [Format.of?, if_neg fun hmagic => not_magic_of_looksPlain h (List.isPrefixOf_iff_prefix.1 hmagic), if_pos h]

/-! ## More bytes -/

theorem tagsOf_suffix (bytes : List UInt8) : tagsOf bytes <:+ bytes := by
  have hmark : withoutMark bytes <:+ bytes := by
    rw [withoutMark]
    split
    · exact List.drop_suffix ..
    · exact List.suffix_rfl
  exact (List.dropWhile_suffix _).trans hmark

/-- The tags of the beginning are the beginning of the tags, if it is not cut off in a byte order mark. -/
theorem tagsOf_prefix {bytes : List UInt8} (h : byteOrderMark.length ≤ bytes.length) (more : List UInt8) :
    tagsOf bytes <+: tagsOf (bytes ++ more) := by
  have htake := tagsOf_take h (bytes ++ more)
  rw [List.take_left] at htake
  rw [htake]
  exact List.take_prefix ..

theorem looksPlain_append {bytes : List UInt8} (h : looksPlain bytes = true) (more : List UInt8) :
    looksPlain (bytes ++ more) = true := by
  obtain ⟨hhead, hopening⟩ := looksPlain_iff.1 h
  have hlength : opening.length ≤ bytes.length :=
    ((hopening.trans (List.take_prefix ..).isInfix).trans (tagsOf_suffix bytes).isInfix).length_le
  have htags : tagsOf bytes <+: tagsOf (bytes ++ more) := tagsOf_prefix (Nat.le_of_succ_le hlength) more
  have hseen : (tagsOf bytes).take sniffLength <+: (tagsOf (bytes ++ more)).take sniffLength :=
    List.prefix_take_iff.2 ⟨(List.take_prefix ..).trans htags, List.length_take_le ..⟩
  refine looksPlain_iff.2 ⟨?_, hopening.trans hseen.isInfix⟩
  obtain ⟨rest, hrest⟩ := htags
  rw [← hrest, List.head?_append, hhead, Option.some_or]

/-- More bytes do not change a format. -/
theorem of?_append {bytes : List UInt8} {format : Format} (h : Format.of? bytes = some format) (more : List UInt8) :
    Format.of? (bytes ++ more) = some format := by
  cases format with
  | plain => exact of?_eq_plain_iff.2 (looksPlain_append (of?_eq_plain_iff.1 h) more)
  | compressed =>
    exact of?_eq_compressed_iff.2 ((of?_eq_compressed_iff.1 h).trans (List.prefix_append ..))

/-- A format that is told from the beginning is that of the whole. -/
theorem of?_of_take {bytes : List UInt8} {n : Nat} {format : Format} (h : Format.of? (bytes.take n) = some format) :
    Format.of? bytes = some format := by
  have hwhole := of?_append h (bytes.drop n)
  rwa [List.take_append_drop] at hwhole

/-- Bytes that have a format keep it when more come after them, in a file too. Whatever beginning of all the bytes is
looked at, as the beginning that is read of a file, it tells this format or none. -/
theorem format_stays {bytes : List UInt8} {format : Format} (h : Format.of? bytes = some format) (more : List UInt8) :
    Format.of? (bytes ++ more) = some format ∧
      (Format.ofFile? bytes = some format → Format.ofFile? (bytes ++ more) = some format) ∧
      (∀ n other, Format.of? ((bytes ++ more).take n) = some other → other = format) ∧
      ∀ other, Format.ofFile? (bytes ++ more) = some other → other = format := by
  have hwhole := of?_append h more
  have hpart : ∀ n other, Format.of? ((bytes ++ more).take n) = some other → other = format := fun n other hother =>
    Option.some.inj ((of?_of_take hother).symm.trans hwhole)
  refine ⟨hwhole, fun hfile => ?_, hpart, hpart sniffLength⟩
  rw [Format.ofFile?, List.take_append]
  exact of?_append hfile _

/-- A byte order mark, a line feed and an opening that is just complete. A byte less, and there is no format yet. -/
theorem format_stays_marked :
    let bytes := byteOrderMark ++ 0x0a :: opening
    Format.of? bytes = some .plain ∧ Format.of? bytes.dropLast = none ∧
      Format.of? (bytes ++ [0x2f, 0x3e]) = some .plain ∧ Format.ofFile? (bytes ++ [0x2f, 0x3e]) = some .plain := by
  intro bytes
  have hformat : Format.of? bytes = some .plain := by decide
  obtain ⟨hwhole, hfile, -⟩ := format_stays hformat [0x2f, 0x3e]
  exact ⟨hformat, by decide, hwhole, hfile (by decide)⟩

/-! ## Text of packed and plain bytes -/

/-- The second of the bytes that packed bytes begin with begins no character. -/
theorem decodeUtf8_of_magic {bytes : List UInt8} (h : gzipMagic <+: bytes) :
    Text.decodeUtf8 bytes = .error (.invalid 1 1) := by
  obtain ⟨rest, rfl⟩ := h
  rfl

/-- The bytes of a text that have a format are plain markup. -/
theorem of?_encodeUtf8 {s : String} (h : (Format.of? (Text.encodeUtf8 s)).isSome) :
    Format.of? (Text.encodeUtf8 s) = some .plain := by
  obtain ⟨format, hformat⟩ := Option.isSome_iff_exists.1 h
  cases format with
  | plain => exact hformat
  | compressed =>
    have hread := decodeUtf8_of_magic (of?_eq_compressed_iff.1 hformat)
    rw [Text.decodeUtf8_encodeUtf8] at hread
    cases hread

/-- What could be unpacked has a format. -/
theorem isSome_of_unpack {bytes content : List UInt8} (h : unpack bytes = .ok content) :
    (Format.of? content).isSome := by
  rw [unpack] at h
  split at h
  · cases h
  · rename_i hformat
    cases h
    rw [hformat]
    rfl
  · split at h
    · cases h
    · split at h
      · cases h
        assumption
      · cases h

theorem readMarkup_eq_ok_iff {bytes : List UInt8} {text : String} :
    readMarkup bytes = .ok text ↔ ∃ s, unpack bytes = .ok (Text.encodeUtf8 s) ∧ dropMark s = text := by
  constructor
  · intro h
    rw [readMarkup] at h
    cases hunpack : unpack bytes with
    | error error =>
      rw [hunpack] at h
      cases h
    | ok content =>
      simp only [hunpack, bind, Except.bind] at h
      cases hread : Text.decodeUtf8 content with
      | error fault =>
        rw [hread] at h
        cases h
      | ok s =>
        rw [hread] at h
        exact ⟨s, by rw [Text.decodeUtf8_eq_ok_iff.1 hread], Except.ok.inj h⟩
  · rintro ⟨s, hunpack, rfl⟩
    simp only [readMarkup, hunpack, bind, Except.bind, Text.decodeUtf8_encodeUtf8]
    rfl

/-! ## Markup without its byte order mark -/

theorem dropMark_eq (s : String) :
    (dropMark s = s ∧ s.toList.head? ≠ some '\ufeff') ∨ s.toList = '\ufeff' :: (dropMark s).toList := by
  unfold dropMark
  split
  · rename_i rest hs
    exact .inr (by rw [hs, String.toList_ofList])
  · rename_i hs
    refine .inl ⟨rfl, fun hhead => ?_⟩
    obtain ⟨rest, hrest⟩ := List.head?_eq_some_iff.1 hhead
    exact hs rest hrest

/-- Plain markup begins with one byte order mark at most. -/
theorem head?_dropMark {s : String} (h : Format.of? (Text.encodeUtf8 s) = some .plain) :
    (dropMark s).toList.head? ≠ some '\ufeff' := by
  obtain ⟨hsame, hhead⟩ | hmark := dropMark_eq s
  · rwa [hsame]
  · intro hhead
    obtain ⟨rest, hrest⟩ := List.head?_eq_some_iff.1 hhead
    rw [hrest] at hmark
    exact ne_marks_of_plain h rest hmark

/-- The tags after a byte order mark are those that there would be without it. -/
theorem tagsOf_mark {bytes : List UInt8} (h : ¬byteOrderMark <+: bytes) :
    tagsOf (byteOrderMark ++ bytes) = tagsOf bytes := by
  rw [tagsOf, withoutMark_append, tagsOf, withoutMark, if_neg fun hmark => h (List.isPrefixOf_iff_prefix.1 hmark)]

theorem encodeUtf8_mark {s : String} {rest : List Char} (h : s.toList = '\ufeff' :: rest) :
    Text.encodeUtf8 s = byteOrderMark ++ rest.flatMap String.utf8EncodeChar := by
  rw [Text.encodeUtf8_eq, h]
  rfl

/-- Plain markup is plain without its byte order mark. -/
theorem of?_dropMark {s : String} (h : Format.of? (Text.encodeUtf8 s) = some .plain) :
    Format.of? (Text.encodeUtf8 (dropMark s)) = some .plain := by
  obtain ⟨hsame, -⟩ | hmark := dropMark_eq s
  · rwa [hsame]
  · rw [encodeUtf8_mark hmark, ← Text.encodeUtf8_eq] at h
    have hplain := looksPlain_iff.1 (of?_eq_plain_iff.1 h)
    have hnone : ¬byteOrderMark <+: Text.encodeUtf8 (dropMark s) := by
      rintro ⟨rest, hrest⟩
      rw [← hrest, tagsOf, withoutMark_append] at hplain
      cases hplain.1
    rw [tagsOf_mark hnone] at hplain
    exact of?_eq_plain_iff.2 (looksPlain_iff.2 hplain)

/-- Markup that was read begins with no byte order mark, its bytes are plain, and they are read as the same markup.
Bytes that are packed twice pass the test of their content, but are no text. -/
theorem readMarkup_again (bytes : List UInt8) :
    (∀ text, readMarkup bytes = .ok text →
      text.toList.head? ≠ some '\ufeff' ∧ Format.of? (Text.encodeUtf8 text) = some .plain ∧
        readMarkup (Text.encodeUtf8 text) = .ok text) ∧
    ∀ content, Format.of? bytes = some .compressed → gunzip bytes = .ok content →
      Format.of? content = some .compressed →
        unpack bytes = .ok content ∧ readMarkup bytes = .error (.encoding (.invalid 1 1)) := by
  refine ⟨fun text h => ?_, fun content hformat hcontent htwice => ?_⟩
  · obtain ⟨s, hunpack, rfl⟩ := readMarkup_eq_ok_iff.1 h
    have hplain := of?_encodeUtf8 (isSome_of_unpack hunpack)
    have hhead := head?_dropMark hplain
    have hagain := of?_dropMark hplain
    refine ⟨hhead, hagain, ?_⟩
    rw [readMarkup_plain hagain]
    obtain ⟨hsame, -⟩ | hmark := dropMark_eq (dropMark s)
    · rw [hsame]
    · rw [hmark] at hhead
      exact absurd rfl hhead
  · have hunpack : unpack bytes = .ok content := by
      rw [unpack, hformat]
      simp only [hcontent, htwice, Option.isSome_some, if_true]
    have hread := decodeUtf8_of_magic (of?_eq_compressed_iff.1 htwice)
    refine ⟨hunpack, ?_⟩
    simp only [readMarkup, hunpack, bind, Except.bind, hread]

/-- Markup with a byte order mark, packed once and packed twice, each time without being made smaller. -/
theorem readMarkup_again_packed :
    let once : List UInt8 := [0x1f, 0x8b, 8, 0, 0, 0, 0, 0, 0, 3, 1, 9, 0, 0xf6, 0xff] ++
      Text.encodeUtf8 "\ufeff<svg/>" ++ [0xc6, 0xf5, 0x5c, 0x43, 9, 0, 0, 0]
    let twice : List UInt8 := [0x1f, 0x8b, 8, 0, 0, 0, 0, 0, 0, 3, 1, 32, 0, 0xdf, 0xff] ++ once ++
      [0x64, 0x1f, 0xdc, 0xf9, 32, 0, 0, 0]
    (readMarkup once = .ok "<svg/>" ∧ Format.of? (Text.encodeUtf8 "<svg/>") = some .plain ∧
      readMarkup (Text.encodeUtf8 "<svg/>") = .ok "<svg/>") ∧
    gunzip twice = .ok once ∧ unpack twice = .ok once ∧ readMarkup twice = .error (.encoding (.invalid 1 1)) := by
  intro once twice
  have hread : readMarkup once = .ok "<svg/>" := Markup.toOption_eq_some_iff.1 (by decide +kernel)
  have hcontent : gunzip twice = .ok once := Markup.toOption_eq_some_iff.1 (by decide +kernel)
  have hmagic (bytes : List UInt8) : Format.of? (0x1f :: 0x8b :: bytes) = some .compressed :=
    of?_eq_compressed_iff.2 ⟨bytes, rfl⟩
  obtain ⟨-, hplain, hagain⟩ := (readMarkup_again once).1 _ hread
  exact ⟨⟨hread, hplain, hagain⟩, hcontent, (readMarkup_again twice).2 once (hmagic _) hcontent (hmagic _)⟩

end SvgPlot.Source
