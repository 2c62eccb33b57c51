import SvgPlot.Proofs.EntryPoints

/-!
# The format of a file

The format of some bytes is told from their first tags. Of a file only its first 4096 bytes are looked at; of bytes it
is the first 4096 after a byte order mark and blanks. So an opening of the root that the blanks push too far back is
found in the bytes, but not in the file.

* `tagsOf_take` says where the tags of the start of a file are among those of the whole file.
* `looksPlain_take_iff` says which plain markup still looks plain when only its start is seen.
* `ofFile?_agrees_iff` says when a file has the format of its bytes. Where it has not, it has none.
-/

namespace SvgPlot.Source

/-! ## Bytes in a row -/

theorem hasInfix_iff {part bytes : List UInt8} : hasInfix part bytes = true ↔ part <:+: bytes := by
  induction bytes with
  | nil => rw [hasInfix, List.isEmpty_iff, List.infix_nil]
  | cons b rest ih => rw [hasInfix, Bool.or_eq_true, ih, List.isPrefixOf_iff_prefix, List.infix_cons_iff]

/-- A beginning that is seen in full is seen whatever is cut off behind. -/
theorem isPrefixOf_take {part : List UInt8} {n : Nat} (h : part.length ≤ n) (bytes : List UInt8) :
    part.isPrefixOf (bytes.take n) = part.isPrefixOf bytes := by
  rw [Bool.eq_iff_iff, List.isPrefixOf_iff_prefix, List.isPrefixOf_iff_prefix, List.prefix_take_iff, and_iff_left h]

theorem dropWhile_take (p : UInt8 → Bool) (bytes : List UInt8) (n : Nat) :
    (bytes.take n).dropWhile p = (bytes.dropWhile p).take (n - (bytes.length - (bytes.dropWhile p).length)) := by
  induction bytes generalizing n with
  | nil => simp
  | cons b rest ih =>
    cases n with
    | zero => simp
    | succ n =>
      have hle := (List.dropWhile_suffix p (l := rest)).length_le
      by_cases hb : p b = true
      · rw [List.take_succ_cons, List.dropWhile_cons_of_pos hb, List.dropWhile_cons_of_pos hb, ih, List.length_cons]
        congr 1
        omega
      · rw [List.take_succ_cons, List.dropWhile_cons_of_neg hb, List.dropWhile_cons_of_neg hb, Nat.sub_self,
          Nat.sub_zero, List.take_succ_cons]

/-! ## The tags of a file -/

/-- What comes after a byte order mark and blanks. -/
def tagsOf (bytes : List UInt8) : List UInt8 := (withoutMark bytes).dropWhile isBlankByte

/-- How many bytes come before the tags. -/
def leadOf (bytes : List UInt8) : Nat := bytes.length - (tagsOf bytes).length

theorem withoutMark_take {n : Nat} (h : byteOrderMark.length ≤ n) (bytes : List UInt8) :
    withoutMark (bytes.take n) = (withoutMark bytes).take (n - (bytes.length - (withoutMark bytes).length)) := by
  rw [withoutMark, isPrefixOf_take h, withoutMark]
  split
  · rename_i hmark
    have hle := (List.isPrefixOf_iff_prefix.1 hmark).length_le
    rw [List.drop_take, List.length_drop]
    congr 1
    omega
  · rw [Nat.sub_self, Nat.sub_zero]

/-- The tags of the start of a file are the start of its tags. -/
theorem tagsOf_take {n : Nat} (h : byteOrderMark.length ≤ n) (bytes : List UInt8) :
    tagsOf (bytes.take n) = (tagsOf bytes).take (n - leadOf bytes) := by
  have hmark : (withoutMark bytes).length ≤ bytes.length := by
    rw [withoutMark]
    split
    · exact List.length_drop ▸ Nat.sub_le ..
    · exact Nat.le_refl _
  have hblank := (List.dropWhile_suffix isBlankByte (l := withoutMark bytes)).length_le
  rw [tagsOf, withoutMark_take h, dropWhile_take]
  show (tagsOf bytes).take _ = _
  congr 1
  rw [leadOf, tagsOf]
  omega

theorem looksPlain_iff {bytes : List UInt8} :
    looksPlain bytes = true ↔ (tagsOf bytes).head? = some 0x3c ∧ opening <:+: (tagsOf bytes).take sniffLength := by
  rw [looksPlain, Bool.and_eq_true, beq_iff_eq, hasInfix_iff]
  rfl

/-- The start of plain markup looks plain if the opening of the root lies in it. -/
theorem looksPlain_take_iff {bytes : List UInt8} :
    looksPlain (bytes.take sniffLength) = true ↔
      looksPlain bytes = true ∧ opening <:+: (tagsOf bytes).take (sniffLength - leadOf bytes) := by
  have hshorter : sniffLength - leadOf bytes ≤ sniffLength := Nat.sub_le ..
  rw [looksPlain_iff, looksPlain_iff, tagsOf_take (by decide), List.take_take, Nat.min_eq_right hshorter]
  constructor
  · rintro ⟨hhead, hopening⟩
    refine ⟨⟨?_, hopening.trans (List.take_prefix_take_left hshorter).isInfix⟩, hopening⟩
    rw [List.head?_take] at hhead
    split at hhead
    · cases hhead
    · exact hhead
  · rintro ⟨⟨hhead, -⟩, hopening⟩
    refine ⟨?_, hopening⟩
    have hroom : sniffLength - leadOf bytes ≠ 0 := by
      intro hzero
      rw [hzero, List.take_zero, List.infix_nil] at hopening
      cases hopening
    rw [List.head?_take, if_neg hroom, hhead]

/-! ## The two ways to a format -/

theorem looksPlain_of_plain {bytes : List UInt8} (h : Format.of? bytes = some .plain) : looksPlain bytes = true := by
  rw [Format.of?] at h
  split at h
  · cases h
  · split at h
    · assumption
    · cases h

/-- A file has a format if its bytes have, and if an opening of the root is seen where there must be one. -/
theorem ofFile?_eq_some_iff {bytes : List UInt8} {format : Format} :
    Format.ofFile? bytes = some format ↔
      Format.of? bytes = some format ∧
        (format = .plain → opening <:+: (tagsOf bytes).take (sniffLength - leadOf bytes)) := by
  rw [Format.ofFile?, Format.of?, Format.of?, isPrefixOf_take (by decide)]
  by_cases hmagic : gzipMagic.isPrefixOf bytes = true
  · simp only [if_pos hmagic]
    cases format <;> simp
  · simp only [if_neg hmagic]
    by_cases hplain : looksPlain bytes = true
    · by_cases hopening : opening <:+: (tagsOf bytes).take (sniffLength - leadOf bytes)
      · rw [if_pos (looksPlain_take_iff.2 ⟨hplain, hopening⟩), if_pos hplain]
        exact (and_iff_left fun _ => hopening).symm
      · rw [if_neg fun h => hopening (looksPlain_take_iff.1 h).2, if_pos hplain]
        cases format <;> simp [hopening]
    · rw [if_neg fun h => hplain (looksPlain_take_iff.1 h).1, if_neg hplain]
      simp

/-- What can be read as markup has a format. -/
theorem isSome_of_readMarkup {bytes : List UInt8} {text : String} (h : readMarkup bytes = .ok text) :
    (Format.of? bytes).isSome := by
  cases hformat : Format.of? bytes with
  | some format => rfl
  | none =>
    rw [readMarkup, unpack, hformat] at h
    cases h

/-! ## Openings at any place -/

/-- A document that begins with a line feed and a comment of so many blanks. -/
def padded (n : Nat) : String := "\n<!--" ++ String.ofList (List.replicate n ' ') ++ "--><svg/>"

/-- The tags of such a document up to the last byte of its opening. -/
def paddedStart (n : Nat) : List UInt8 :=
  [0x3c, 0x21, 0x2d, 0x2d] ++ List.replicate n 0x20 ++ [0x2d, 0x2d, 0x3e, 0x3c, 0x73, 0x76]

theorem encodeUtf8_padded (n : Nat) : Text.encodeUtf8 (padded n) = 0x0a :: (paddedStart n ++ [0x67, 0x2f, 0x3e]) := by
  have hblanks : (String.ofList (List.replicate n ' ')).toList.flatMap String.utf8EncodeChar =
      List.replicate n 0x20 := by
    rw [String.toList_ofList, List.flatMap_replicate]
    exact List.flatten_replicate_singleton
  rw [Text.encodeUtf8_eq, padded, String.toList_append, String.toList_append, List.flatMap_append, List.flatMap_append,
    hblanks, paddedStart, List.append_assoc, List.append_assoc]
  rfl

theorem tagsOf_padded (n : Nat) : tagsOf (Text.encodeUtf8 (padded n)) = paddedStart n ++ [0x67, 0x2f, 0x3e] := by
  rw [encodeUtf8_padded]
  rfl

/-- The opening of such a document is seen with its last byte. -/
theorem infix_take_padded_iff (n k : Nat) :
    opening <:+: (paddedStart n ++ [0x67, 0x2f, 0x3e]).take k ↔ n + 10 < k := by
  have hlength : (paddedStart n).length = n + 10 := by
    simp only [paddedStart, List.length_append, List.length_replicate, List.length_cons, List.length_nil]
    omega
  rcases Nat.lt_or_ge (n + 10) k with hlong | hshort
  · refine iff_of_true ?_ hlong
    have hwhole : paddedStart n ++ [0x67] <+: (paddedStart n ++ [0x67, 0x2f, 0x3e]).take k := by
      refine List.prefix_take_iff.2 ⟨?_, ?_⟩
      · rw [List.prefix_append_right_inj]
        exact ⟨_, rfl⟩
      · rw [List.length_append, hlength]
        exact hlong
    have hend : opening <:+ paddedStart n ++ [0x67] := by
      rw [paddedStart, List.append_assoc]
      exact ⟨_ ++ [0x2d, 0x2d, 0x3e], List.append_assoc ..⟩
    exact hend.isInfix.trans hwhole.isInfix
  · refine iff_of_false (fun h => ?_) (Nat.not_lt.2 hshort)
    -- there is no other `g`
    have hmem : 0x67 ∈ (paddedStart n ++ [0x67, 0x2f, 0x3e]).take k := h.subset (by decide)
    rw [List.take_append_of_le_length (by omega)] at hmem
    have hnot : 0x67 ∉ paddedStart n := by simp [paddedStart]
    exact hnot (List.mem_of_mem_take hmem)

/-- Such a document looks plain. -/
theorem of?_padded {n : Nat} (h : n + 11 ≤ sniffLength) : Format.of? (Text.encodeUtf8 (padded n)) = some .plain := by
  have hplain : looksPlain (Text.encodeUtf8 (padded n)) = true := by
    rw [looksPlain_iff, tagsOf_padded, infix_take_padded_iff]
    exact ⟨rfl, h⟩
  rw [Format.of?, if_pos hplain, encodeUtf8_padded]
  rfl

theorem leadOf_padded (n : Nat) : leadOf (Text.encodeUtf8 (padded n)) = 1 := by
  rw [leadOf, tagsOf_padded, encodeUtf8_padded, List.length_cons]
  omega

theorem readMarkup_padded {n : Nat} (h : n + 11 ≤ sniffLength) :
    readMarkup (Text.encodeUtf8 (padded n)) = .ok (padded n) := by
  have hchars : (padded n).toList =
      '\n' :: ("<!--".toList ++ (String.ofList (List.replicate n ' ')).toList ++ "--><svg/>".toList) := by
    rw [padded, String.toList_append, String.toList_append]
    rfl
  rw [readMarkup_plain (of?_padded h), dropMark, hchars]
  rfl

/-! ## Files and their bytes -/

/-- A file never has a format that its bytes have not. It has that of its bytes, unless they are plain markup of which
the opening of the root lies beyond the start of the file; then it has none, and so markup that can be read is not
recognised in its file. Where nothing comes before the first tag the two agree. -/
theorem ofFile?_agrees_iff (bytes : List UInt8) :
    (∀ format, Format.ofFile? bytes = some format → Format.of? bytes = some format) ∧
    (Format.ofFile? bytes = Format.of? bytes ↔
      (Format.of? bytes = some .plain → opening <:+: (tagsOf bytes).take (sniffLength - leadOf bytes))) ∧
    (leadOf bytes = 0 → Format.ofFile? bytes = Format.of? bytes) ∧
    ((Format.ofFile? bytes).isSome = (Format.of? bytes).isSome ↔ Format.ofFile? bytes = Format.of? bytes) ∧
    ∀ text, readMarkup bytes = .ok text →
      ((Format.ofFile? bytes).isSome ↔ Format.ofFile? bytes = Format.of? bytes) := by
  have hle : ∀ format, Format.ofFile? bytes = some format → Format.of? bytes = some format := fun _ h =>
    (ofFile?_eq_some_iff.1 h).1
  have hagree : Format.ofFile? bytes = Format.of? bytes ↔
      (Format.of? bytes = some .plain → opening <:+: (tagsOf bytes).take (sniffLength - leadOf bytes)) := by
    constructor
    · intro h hplain
      exact (ofFile?_eq_some_iff.1 (h.trans hplain)).2 rfl
    · intro h
      cases hformat : Format.of? bytes with
      | some format => exact ofFile?_eq_some_iff.2 ⟨hformat, fun hplain => h (hplain ▸ hformat)⟩
      | none =>
        rw [Option.eq_none_iff_forall_ne_some]
        intro format hfile
        rw [hle format hfile] at hformat
        cases hformat
  have hsome : (Format.ofFile? bytes).isSome = (Format.of? bytes).isSome ↔ Format.ofFile? bytes = Format.of? bytes := by
    refine ⟨fun h => ?_, congrArg Option.isSome⟩
    cases hfile : Format.ofFile? bytes with
    | some format => exact (hle format hfile).symm
    | none =>
      rw [hfile, Option.isSome_none, eq_comm, Option.isSome_eq_false_iff, Option.isNone_iff_eq_none] at h
      exact h.symm
  refine ⟨hle, hagree, fun hlead => hagree.2 fun hplain => ?_, hsome, fun text htext => ?_⟩
  · rw [hlead]
    exact (looksPlain_iff.1 (looksPlain_of_plain hplain)).2
  · rw [← hsome, isSome_of_readMarkup htext]

/-- The last byte of this opening is the last that is looked at. -/
theorem ofFile?_agrees_iff_padded :
    let bytes := Text.encodeUtf8 (padded 4084)
    readMarkup bytes = .ok (padded 4084) ∧ Format.ofFile? bytes = Format.of? bytes ∧ (Format.ofFile? bytes).isSome := by
  intro bytes
  have hread : readMarkup bytes = .ok (padded 4084) := readMarkup_padded (by decide)
  obtain ⟨-, hagree, -, -, hsome⟩ := ofFile?_agrees_iff bytes
  have hsame : Format.ofFile? bytes = Format.of? bytes := hagree.2 fun _ => by
    rw [leadOf_padded, tagsOf_padded, infix_take_padded_iff]
    decide
  exact ⟨hread, hsame, (hsome _ hread).2 hsame⟩

/-- With one blank more the line feed counts: the bytes are plain markup and can be read, but the file has no format. -/
theorem ofFile?_padded_eq_none :
    let bytes := Text.encodeUtf8 (padded 4085)
    Format.of? bytes = some .plain ∧ readMarkup bytes = .ok (padded 4085) ∧ Format.ofFile? bytes = none := by
  intro bytes
  have hplain : Format.of? bytes = some .plain := of?_padded (by decide)
  refine ⟨hplain, readMarkup_padded (by decide), ?_⟩
  rw [Option.eq_none_iff_forall_ne_some]
  intro format hfile
  obtain ⟨hformat, hseen⟩ := ofFile?_eq_some_iff.1 hfile
  have hopening := hseen (Option.some.inj (hformat.symm.trans hplain))
  rw [leadOf_padded, tagsOf_padded, infix_take_padded_iff] at hopening
  exact absurd hopening (by decide)

end SvgPlot.Source
