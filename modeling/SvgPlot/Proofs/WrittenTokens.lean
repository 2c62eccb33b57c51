import SvgPlot.Proofs.Growth
import SvgPlot.Proofs.WrittenAttributes

/-!
# Reading tokens off their written form

`Reads` says which tokens the reader takes from a text, whatever follows it of a certain kind: after text only markup
may follow, after markup anything. Readings of neighbouring texts add up (`Reads.append`). The written forms read as one
expects:

* a text node as texts and references (`exists_reads_text`);
* a CDATA section as one token (`reads_cdata`);
* the three kinds of tags (`reads_opening`, `reads_empty`, `reads_closing`).
-/

namespace SvgPlot.Markup

/-- Nothing, or something that begins with a `<`. -/
def IsMarkup (text : List Char) : Prop := ∀ c ∈ text.head?, c = '<'

theorem IsMarkup.nil : IsMarkup [] := by simp [IsMarkup]

theorem IsMarkup.cons (rest : List Char) : IsMarkup ('<' :: rest) := by simp [IsMarkup]

theorem IsMarkup.append {text more : List Char} (h : IsMarkup text) (hmore : IsMarkup more) :
    IsMarkup (text ++ more) := by
  cases text with
  | nil => exact hmore
  | cons c rest => exact h

/-- The reader takes these tokens from a text with such a text after it. The elements `names` are open before the tokens
and `after` after them. -/
def Reads (follows : List Char → Prop) (names : List (List Char)) (text : List Char) (tokens : List Token)
    (after : List (List Char)) : Prop :=
  ∀ (seen : List Token) (rest : List Char), follows rest →
    readTokens names seen (text ++ rest) = readTokens after (tokens.reverse ++ seen) rest

/-- No condition on a text. -/
def Anything (_ : List Char) : Prop := True

section

variable {follows : List Char → Prop} {names between after : List (List Char)}

theorem Reads.nil : Reads follows names [] [] names := fun _ _ _ => rfl

/-- A text and another one that may follow it. -/
theorem Reads.append {first : List Char → Prop} {text more : List Char} {tokens others : List Token}
    (h : Reads first names text tokens between) (hmore : Reads follows between more others after)
    (hfollows : ∀ rest, follows rest → first (more ++ rest)) :
    Reads follows names (text ++ more) (tokens ++ others) after := by
  intro seen rest hrest
  rw [List.append_assoc, h seen _ (hfollows rest hrest), hmore _ rest hrest, List.reverse_append, List.append_assoc]

/-- One token, which the reader takes with whatever follows it. -/
theorem Reads.of_next {c : Char} {text : List Char} {token : Token}
    (hnext : ∀ rest, Token.next c (text ++ rest) = .ok (token, rest)) (hnest : token.nest names = .ok after) :
    Reads Anything names (c :: text) [token] after :=
  fun _ rest _ => readTokens_of_next (hnext rest) hnest

end

/-! ## Text -/

/-- Characters other than `&` and `<`, and references `&body;` whose bodies hold no `&`, `;` and `<`. -/
inductive IsTextData : List Char → Prop where
  | nil : IsTextData []
  | plain {c : Char} {rest : List Char} (hamp : c ≠ '&') (hlt : c ≠ '<') (hrest : IsTextData rest) :
      IsTextData (c :: rest)
  | reference {body rest : List Char} (hbody : ∀ c ∈ body, c ≠ '&' ∧ c ≠ ';' ∧ c ≠ '<') (hrest : IsTextData rest) :
      IsTextData ('&' :: (body ++ ';' :: rest))

theorem isPlain_iff {c : Char} : isPlain c = true ↔ c ≠ '&' ∧ c ≠ '<' := by
  simp [isPlain, and_comm]

theorem IsTextData.dropWhile {text : List Char} (h : IsTextData text) : IsTextData (text.dropWhile isPlain) := by
  induction h with
  | nil => exact .nil
  | plain hamp hlt hrest ih =>
    rw [List.dropWhile_cons_of_pos (isPlain_iff.2 ⟨hamp, hlt⟩)]
    exact ih
  | reference hbody hrest ih =>
    rw [List.dropWhile_cons_of_neg (by decide)]
    exact .reference hbody hrest

/-- A run of plain characters ends where markup follows. -/
theorem span_isPlain_append (text : List Char) {rest : List Char} (hrest : IsMarkup rest) :
    (text ++ rest).takeWhile isPlain = text.takeWhile isPlain ∧
      (text ++ rest).dropWhile isPlain = text.dropWhile isPlain ++ rest := by
  induction text with
  | nil =>
    cases rest with
    | nil => exact ⟨rfl, rfl⟩
    | cons c rest =>
      obtain rfl : c = '<' := hrest c rfl
      exact ⟨rfl, rfl⟩
  | cons c text ih =>
    cases hc : isPlain c with
    | true => simp [hc, ih]
    | false => simp [hc]

theorem next_plain {c : Char} (hamp : c ≠ '&') (hlt : c ≠ '<') (rest : List Char) :
    Token.next c rest = .ok (.text (c :: rest.takeWhile isPlain), rest.dropWhile isPlain) := by
  simp [Token.next, hamp, hlt]

theorem next_reference {body : List Char} (hbody : ∀ c ∈ body, c ≠ '&' ∧ c ≠ ';' ∧ c ≠ '<') (rest : List Char) :
    Token.next '&' (body ++ ';' :: rest) = .ok (.reference body, rest) := by
  have hscan : body.foldlM stepReference () = some () := by
    induction body with
    | nil => rfl
    | cons c body ih =>
      obtain ⟨⟨hamp, hsemicolon, hlt⟩, hbody⟩ := List.forall_mem_cons.1 hbody
      have hstep : stepReference () c = some () := by simp [stepReference, hamp, hsemicolon, hlt]
      rw [List.foldlM_cons, hstep]
      exact ih hbody
  show readReference (body ++ ';' :: rest) = _
  rw [readReference, scan_append hscan rfl rest]
  rfl

/-- Text data reads as tokens that are no tags and together hold the text. -/
theorem exists_reads_text (text : List Char) (h : IsTextData text) :
    ∃ (tokens : List Token) (pieces : List (List Char)),
      (∀ token ∈ tokens, token.IsInner) ∧
        tokens.flatMap (·.content?.toList) = pieces.map (fun piece => Content.text (String.ofList piece)) ∧
        pieces.flatten = text ∧ ∀ names, Reads IsMarkup names text tokens names := by
  generalize hsize : text.length = n
  induction n using Nat.strongRecOn generalizing text with
  | ind n ih =>
    cases h with
    | nil => exact ⟨[], [], by simp, rfl, rfl, fun _ => Reads.nil⟩
    | @plain c others hamp hlt hothers =>
      -- the token takes all plain characters that follow
      have hshorter : (others.dropWhile isPlain).length < n := by
        have := (List.dropWhile_suffix isPlain (l := others)).length_le
        rw [← hsize, List.length_cons]
        omega
      obtain ⟨tokens, pieces, hinner, hpieces, hflatten, hreads⟩ := ih _ hshorter _ hothers.dropWhile rfl
      refine ⟨.text (c :: others.takeWhile isPlain) :: tokens, (c :: others.takeWhile isPlain) :: pieces,
        ?_, ?_, ?_, ?_⟩
      · exact List.forall_mem_cons.2 ⟨trivial, hinner⟩
      · rw [List.flatMap_cons, hpieces]
        rfl
      · rw [List.flatten_cons, hflatten, List.cons_append, List.takeWhile_append_dropWhile]
      · intro names seen rest hrest
        obtain ⟨htake, hdrop⟩ := span_isPlain_append others hrest
        have hnext := next_plain hamp hlt (others ++ rest)
        rw [htake, hdrop] at hnext
        rw [List.cons_append, readTokens_of_next hnext rfl, hreads names _ rest hrest, List.reverse_cons,
          List.append_assoc]
        rfl
    | @reference body others hbody hothers =>
      have hshorter : others.length < n := by
        rw [← hsize, List.length_cons, List.length_append, List.length_cons]
        omega
      obtain ⟨tokens, pieces, hinner, hpieces, hflatten, hreads⟩ := ih _ hshorter _ hothers rfl
      refine ⟨.reference body :: tokens, ('&' :: (body ++ [';'])) :: pieces, ?_, ?_, ?_, ?_⟩
      · exact List.forall_mem_cons.2 ⟨trivial, hinner⟩
      · rw [List.flatMap_cons, hpieces]
        rfl
      · rw [List.flatten_cons, hflatten]
        simp
      · intro names seen rest hrest
        have hnext := next_reference hbody (others ++ rest)
        rw [List.cons_append, List.append_assoc, List.cons_append, readTokens_of_next hnext rfl,
          hreads names _ rest hrest, List.reverse_cons, List.append_assoc]
        rfl

theorem next_markup (rest : List Char) : Token.next '<' rest = readMarkup rest := rfl

/-! ## CDATA -/

/-- The scan goes on over text in which `]]>` does not occur, counting the brackets just before it. -/
theorem exists_foldlM_stepCData {raw : List Char} :
    ∀ brackets : Nat, ¬ "]]>".toList <:+: List.replicate brackets ']' ++ raw →
      ∃ state, raw.foldlM stepCData brackets = some state := by
  induction raw with
  | nil => exact fun brackets _ => ⟨brackets, rfl⟩
  | cons c raw ih =>
    intro brackets h
    have hgoes : ¬ (c = '>' ∧ 2 ≤ brackets) := by
      intro h
      obtain ⟨rfl, hbrackets⟩ := h
      obtain ⟨before, rfl⟩ := Nat.exists_eq_add_of_le' hbrackets
      apply h
      refine ⟨List.replicate before ']', raw, ?_⟩
      rw [← List.replicate_append_replicate, List.append_assoc, List.append_assoc]
      rfl
    rw [List.foldlM_cons]
    by_cases hbracket : c = ']'
    · have hstep : stepCData brackets c = some (brackets + 1) := by simp [stepCData, hbracket]
      have hmore : List.replicate brackets ']' ++ c :: raw = List.replicate (brackets + 1) ']' ++ raw := by
        rw [hbracket, List.replicate_succ', List.append_assoc]
        rfl
      rw [hstep]
      exact ih (brackets + 1) (hmore ▸ h)
    · have hstep : stepCData brackets c = some 0 := by
        simp only [stepCData, beq_iff_eq, Bool.and_eq_true, decide_eq_true_eq, hgoes, hbracket, if_false]
      rw [hstep]
      refine ih 0 fun hinfix => h ?_
      exact hinfix.trans (List.IsSuffix.isInfix ⟨List.replicate brackets ']' ++ [c], by simp⟩)

/-- A CDATA section reads as one token with what is inside. -/
theorem reads_cdata {raw : List Char} (h : ¬ "]]>".toList <:+: raw) (names : List (List Char)) :
    Reads Anything names ('<' :: '!' :: ("[CDATA[".toList ++ (raw ++ "]]>".toList))) [.cdata raw] names := by
  refine Reads.of_next (fun rest => ?_) rfl
  obtain ⟨state, hraw⟩ := exists_foldlM_stepCData 0 (by simpa using h)
  have hinside : ("[CDATA[".toList ++ (raw ++ "]]".toList)).foldlM stepCData 0 = some (state + 2) := by
    have hopening : "[CDATA[".toList.foldlM stepCData 0 = some 0 := by decide
    rw [List.foldlM_append, hopening]
    show (raw ++ "]]".toList).foldlM stepCData 0 = _
    rw [List.foldlM_append, hraw]
    rfl
  have htext : '!' :: ("[CDATA[".toList ++ (raw ++ "]]>".toList)) ++ rest =
      '!' :: (("[CDATA[".toList ++ (raw ++ "]]".toList)) ++ '>' :: rest) := by simp
  have hstop : stepCData (state + 2) '>' = none := by simp [stepCData]
  have hkept : (("[CDATA[".toList ++ (raw ++ "]]".toList)).drop 7).take
      (("[CDATA[".toList ++ (raw ++ "]]".toList)).length - 9) = raw := by
    have hlength : ("[CDATA[".toList ++ (raw ++ "]]".toList)).length - 9 = raw.length := by
      simp only [List.length_append, String.length_toList]
      show 7 + (raw.length + 2) - 9 = _
      omega
    rw [hlength]
    exact List.take_left
  rw [htext, next_markup]
  show readCData (("[CDATA[".toList ++ (raw ++ "]]".toList)) ++ '>' :: rest) = _
  rw [readCData, scan_append hinside hstop rest]
  show (if "[CDATA[".toList.isPrefixOf ("[CDATA[".toList ++ (raw ++ "]]".toList)) then _ else _) = _
  rw [if_pos (List.isPrefixOf_iff_prefix.2 (List.prefix_append _ _)), hkept]

/-! ## Tags -/

/-- The text of a tag begins with its name, which ends at the first blank or with the text. -/
theorem ofInner_name {name : List Char} (h : ∀ c ∈ name, isNameChar c = true) {after : List Char}
    (hafter : ∀ c ∈ after.head?, isSpace c = true) : Tag.ofInner (name ++ after) = ⟨name, after⟩ := by
  have hname : ∀ c ∈ name, (!isSpace c) = true := fun c hc => by
    rw [isSpace_of_isNameChar (h c hc)]
    rfl
  rw [Tag.ofInner, List.takeWhile_append_of_pos hname, List.dropWhile_append_of_pos hname]
  cases after with
  | nil => simp
  | cons c after =>
    have hc : isSpace c = true := hafter c rfl
    simp [hc]

/-- A row of attributes is empty or begins with a blank. -/
theorem isSpace_head_attributeText (entries : List (String × String)) :
    ∀ c ∈ (attributeText entries).head?, isSpace c = true := by
  cases entries with
  | nil => simp [attributeText]
  | cons entry rest =>
    rw [attributeText_cons]
    simp [isSpace]

/-- A row of attributes is empty or ends with a quote. -/
theorem getLast?_attributeText (entries : List (String × String)) :
    ∀ c ∈ (attributeText entries).getLast?, c = '"' := by
  induction entries with
  | nil => simp [attributeText]
  | cons entry rest ih =>
    intro c hc
    rw [attributeText_cons, List.getLast?_cons, List.getLast?_append, List.getLast?_cons, List.getLast?_cons,
      List.getLast?_append, List.getLast?_cons] at hc
    cases hrest : (attributeText rest).getLast? with
    | some d =>
      rw [hrest] at hc
      exact ih c (hrest ▸ hc)
    | none =>
      rw [hrest] at hc
      cases hc
      rfl

/-- A tag that is not closing is closed at once if a slash comes last. -/
theorem tokenOfInner_cons {first : Char} (h : first ≠ '/') (rest : List Char) :
    tokenOfInner (first :: rest) =
      if (first :: rest).getLast? = some '/' then .empty (Tag.ofInner (first :: rest).dropLast)
      else .opening (Tag.ofInner (first :: rest)) := by
  simp [tokenOfInner, h]

section

variable {name : List Char} (hname : IsName name) (entries : List (String × String))

include hname

theorem ofInner_tag : Tag.ofInner (name ++ attributeText entries) = ⟨name, attributeText entries⟩ :=
  ofInner_name (fun _ hc => hname.isNameChar hc) (isSpace_head_attributeText entries)

theorem getLast?_tag_ne_slash : (name ++ attributeText entries).getLast? ≠ some '/' := by
  intro h
  rw [List.getLast?_append] at h
  cases hlast : (attributeText entries).getLast? with
  | some c =>
    rw [hlast, getLast?_attributeText entries c hlast] at h
    cases h
  | none =>
    rw [hlast] at h
    have hmem : '/' ∈ name := List.mem_of_getLast? h
    exact ne_of_isNameChar (hname.isNameChar hmem) (by decide) rfl

theorem tokenOfInner_opening :
    tokenOfInner (name ++ attributeText entries) = .opening ⟨name, attributeText entries⟩ := by
  have hlast := getLast?_tag_ne_slash hname entries
  have hinner := ofInner_tag hname entries
  cases name with
  | nil => exact hname.elim
  | cons first others =>
    have hfirst : first ≠ '/' := ne_of_isNameChar (hname.isNameChar List.mem_cons_self) (by decide)
    rw [List.cons_append] at hlast hinner ⊢
    rw [tokenOfInner_cons hfirst, if_neg hlast, hinner]

theorem tokenOfInner_empty :
    tokenOfInner (name ++ attributeText entries ++ ['/']) = .empty ⟨name, attributeText entries⟩ := by
  have hinner := ofInner_tag hname entries
  have hlast : (name ++ attributeText entries ++ ['/']).getLast? = some '/' := List.getLast?_concat
  have hbefore : (name ++ attributeText entries ++ ['/']).dropLast = name ++ attributeText entries :=
    List.dropLast_concat
  cases name with
  | nil => exact hname.elim
  | cons first others =>
    have hfirst : first ≠ '/' := ne_of_isNameChar (hname.isNameChar List.mem_cons_self) (by decide)
    rw [List.cons_append, List.cons_append] at hlast hbefore ⊢
    rw [tokenOfInner_cons hfirst, if_pos hlast, hbefore, ← List.cons_append, hinner]

theorem tokenOfInner_closing : tokenOfInner ('/' :: name) = .closing name := by
  show Token.closing (closingName name) = _
  have hends : name.reverse.dropWhile isSpace = name.reverse := by
    cases hreverse : name.reverse with
    | nil => rfl
    | cons last others =>
      have hmem : last ∈ name := List.mem_reverse.1 (hreverse ▸ List.mem_cons_self)
      exact List.dropWhile_cons_of_neg (by simp [isSpace_of_isNameChar (hname.isNameChar hmem)])
  rw [closingName, hends, List.reverse_reverse, ite_self]

end

/-- What stands between `<` and the first `>` outside quotes is the text of a tag. -/
theorem reads_tag {names after : List (List Char)} {first : Char} {others : List Char} (hdeclares : first ≠ '!')
    (hinstructs : first ≠ '?') (hopen : (first :: others).foldlM stepTag none = some none)
    (hnest : (tokenOfInner (first :: others)).nest names = .ok after) :
    Reads Anything names ('<' :: (first :: others ++ ['>'])) [tokenOfInner (first :: others)] after := by
  refine Reads.of_next (fun rest => ?_) hnest
  have htag : readMarkup (first :: others ++ '>' :: rest) = readTag (first :: others ++ '>' :: rest) := by
    simp [readMarkup, hdeclares, hinstructs]
  rw [List.append_assoc, next_markup]
  show readMarkup (first :: others ++ '>' :: rest) = _
  rw [htag, readTag, scan_append hopen rfl rest]

section

variable {name : List Char} {entries : List (String × String)} (hname : IsName name)
  (hkeys : ∀ entry ∈ entries, IsName entry.1.toList)

include hname hkeys

theorem foldlM_stepTag_tag : (name ++ attributeText entries).foldlM stepTag none = some none := by
  rw [List.foldlM_append, foldlM_stepTag_name fun c hc => hname.isNameChar hc]
  exact foldlM_stepTag_attributeText hkeys

/-- An opening tag. -/
theorem reads_opening (names : List (List Char)) :
    Reads Anything names ('<' :: (name ++ attributeText entries ++ ['>'])) [.opening ⟨name, attributeText entries⟩]
      (name :: names) := by
  have hopen := foldlM_stepTag_tag hname hkeys
  have htoken := tokenOfInner_opening hname entries
  cases name with
  | nil => exact hname.elim
  | cons first others =>
    have hfirst := hname.isNameChar List.mem_cons_self
    rw [List.cons_append] at hopen htoken ⊢
    rw [← htoken]
    refine reads_tag (ne_of_isNameChar hfirst (by decide)) (ne_of_isNameChar hfirst (by decide)) hopen ?_
    rw [htoken]
    rfl

/-- An opening tag that is closed at once. -/
theorem reads_empty (names : List (List Char)) :
    Reads Anything names ('<' :: (name ++ attributeText entries ++ ['/', '>'])) [.empty ⟨name, attributeText entries⟩]
      names := by
  have htext : name ++ attributeText entries ++ ['/', '>'] = name ++ attributeText entries ++ ['/'] ++ ['>'] := by simp
  have hopen : (name ++ attributeText entries ++ ['/']).foldlM stepTag none = some none := by
    rw [List.foldlM_append, foldlM_stepTag_tag hname hkeys]
    rfl
  have htoken := tokenOfInner_empty hname entries
  rw [htext]
  cases name with
  | nil => exact hname.elim
  | cons first others =>
    have hfirst := hname.isNameChar List.mem_cons_self
    rw [List.cons_append, List.cons_append] at hopen htoken ⊢
    rw [← htoken]
    refine reads_tag (ne_of_isNameChar hfirst (by decide)) (ne_of_isNameChar hfirst (by decide)) hopen ?_
    rw [htoken]
    rfl

end

/-- A closing tag of the innermost open element. -/
theorem reads_closing {name : List Char} (hname : IsName name) (names : List (List Char)) :
    Reads Anything (name :: names) ('<' :: '/' :: (name ++ ['>'])) [.closing name] names := by
  have hopen : ('/' :: name).foldlM stepTag none = some none := by
    rw [List.foldlM_cons]
    exact foldlM_stepTag_name fun c hc => hname.isNameChar hc
  rw [← tokenOfInner_closing hname]
  refine reads_tag (by decide) (by decide) hopen ?_
  rw [tokenOfInner_closing hname]
  simp [Token.nest]

end SvgPlot.Markup
