import SvgPlot.Proofs.AttributeText

/-!
# Attributes as they are written

Names and attribute values in their canonical form, and what reading makes of it.

* `escape` replaces the five characters that have a predefined name; `expand_escape` says that expanding undoes it.
* `attributeText` is a row of attributes with values in double quotes. It cuts into the same attributes
  (`splitAttributes_attributeText`), in whatever order they were written (`Tag.readAttributes_attributeText`).
* `foldlM_stepTag_attributeText` says that no tag ends inside such a row.
-/

namespace SvgPlot.Markup

/-! ## Names -/

def isNameStart (c : Char) : Bool := c.isAlpha || c == '_'

def isNameChar (c : Char) : Bool := isNameStart c || c.isDigit || c == '.' || c == ':' || c == '-'

/-- A letter or an underscore, and then letters, digits and `_`, `.`, `:`, `-`. -/
def IsName : List Char → Prop
  | [] => False
  | first :: rest => isNameStart first = true ∧ ∀ c ∈ rest, isNameChar c = true

instance : DecidablePred IsName
  | [] => inferInstanceAs (Decidable False)
  | first :: rest =>
    decidable_of_iff (isNameStart first = true ∧ rest.all isNameChar = true) (by simp [IsName])

theorem isNameChar_of_isNameStart {c : Char} (h : isNameStart c = true) : isNameChar c = true := by
  simp only [isNameChar, h, Bool.true_or]

theorem IsName.isNameChar {name : List Char} (h : IsName name) {c : Char} (hmem : c ∈ name) :
    Markup.isNameChar c = true := by
  cases name with
  | nil => cases hmem
  | cons first rest =>
    rcases List.mem_cons.1 hmem with rfl | hmem
    · exact isNameChar_of_isNameStart h.1
    · exact h.2 c hmem

theorem ne_of_isNameChar {c d : Char} (h : isNameChar c = true) (hd : isNameChar d = false) : c ≠ d := by
  intro heq
  subst heq
  rw [h] at hd
  cases hd

theorem isSpace_of_isNameChar {c : Char} (h : isNameChar c = true) : isSpace c = false := by
  have hspace : c ≠ ' ' := ne_of_isNameChar h (by decide)
  have htab : c ≠ '\t' := ne_of_isNameChar h (by decide)
  have hreturn : c ≠ '\r' := ne_of_isNameChar h (by decide)
  have hfeed : c ≠ '\n' := ne_of_isNameChar h (by decide)
  simp [isSpace, hspace, htab, hreturn, hfeed]

/-! ## Values -/

/-- A character of a value as it is written. -/
def escapeChar (c : Char) : List Char :=
  if c = '&' then "&amp;".toList
  else if c = '<' then "&lt;".toList
  else if c = '>' then "&gt;".toList
  else if c = '"' then "&quot;".toList
  else if c = '\'' then "&apos;".toList
  else [c]

/-- A value as it is written. -/
def escape (text : List Char) : List Char := text.flatMap escapeChar

/-- A character is written as it is, or as a reference that stands for it. -/
theorem escapeChar_cases (c : Char) :
    (escapeChar c = [c] ∧ c ≠ '&' ∧ c ≠ '"') ∨
      ∃ body, escapeChar c = '&' :: (body ++ [';']) ∧ (∀ d ∈ body, d ≠ '&' ∧ d ≠ ';' ∧ d ≠ '"') ∧
        ∀ start, resolve start body = .ok c := by
  unfold escapeChar
  split
  · rename_i h
    subst h
    exact .inr ⟨"amp".toList, rfl, by simp, fun _ => rfl⟩
  split
  · rename_i h
    subst h
    exact .inr ⟨"lt".toList, rfl, by simp, fun _ => rfl⟩
  split
  · rename_i h
    subst h
    exact .inr ⟨"gt".toList, rfl, by simp, fun _ => rfl⟩
  split
  · rename_i h
    subst h
    exact .inr ⟨"quot".toList, rfl, by simp, fun _ => rfl⟩
  split
  · rename_i h
    subst h
    exact .inr ⟨"apos".toList, rfl, by simp, fun _ => rfl⟩
  · rename_i hamp _ _ hquot _
    exact .inl ⟨rfl, hamp, hquot⟩

theorem ne_quote_of_mem_escape {text : List Char} {d : Char} (h : d ∈ escape text) : d ≠ '"' := by
  obtain ⟨c, -, hd⟩ := List.mem_flatMap.1 h
  rcases escapeChar_cases c with ⟨hc, -, hquote⟩ | ⟨body, hc, hbody, -⟩
  · rw [hc, List.mem_singleton] at hd
    exact hd ▸ hquote
  · rw [hc, List.mem_cons, List.mem_append, List.mem_singleton] at hd
    rcases hd with rfl | hd | rfl
    · decide
    · exact (hbody d hd).2.2
    · decide

/-! ## Expanding what was escaped -/

/-- The body of a reference is cut off at its semicolon. -/
theorem cutFrom_body {holds : Char → Bool} {body : List Char} (h : ∀ d ∈ body, d ≠ ';' ∧ holds d = true)
    (rest : List Char) : ∀ seen,
      cutFrom holds true seen (body ++ ';' :: rest) =
        .reference (seen.reverse ++ body) :: cutFrom holds false [] rest := by
  induction body with
  | nil =>
    intro seen
    simp [cutFrom]
  | cons d body ih =>
    intro seen
    obtain ⟨hd, hbody⟩ := List.forall_mem_cons.1 h
    simp only [List.cons_append, cutFrom, beq_iff_eq, hd.1, if_false, hd.2, if_true, ih hbody]
    simp

/-- Plain characters come before what the other pieces expand to. -/
theorem expandPieces_plainPiece (size start : Nat) (seen : List Char) (pieces : List Piece) :
    ∃ next, expandPieces size start (plainPiece seen ++ pieces) =
      (expandPieces size next pieces).map fun more => seen.reverse ++ more := by
  unfold plainPiece
  cases hseen : seen.isEmpty with
  | true =>
    obtain rfl := List.isEmpty_iff.1 hseen
    refine ⟨start, ?_⟩
    show expandPieces size start pieces = (expandPieces size start pieces).map fun more => more
    cases expandPieces size start pieces <;> rfl
  | false =>
    refine ⟨start + Text.byteLength seen.reverse, ?_⟩
    simp only [Bool.false_eq_true, if_false, List.singleton_append, expandPieces]
    cases expandPieces size (start + Text.byteLength seen.reverse) pieces <;> rfl

theorem expandPieces_cutFrom_escape (size : Nat) (text : List Char) : ∀ (start : Nat) (seen : List Char),
    expandPieces size start (cutFrom (· != '&') false seen (escape text)) = .ok (seen.reverse ++ text) := by
  induction text with
  | nil =>
    intro start seen
    obtain ⟨next, hplain⟩ := expandPieces_plainPiece size start seen []
    rw [List.append_nil] at hplain
    simp only [escape, List.flatMap_nil, cutFrom, hplain, expandPieces, Except.map]
  | cons c rest ih =>
    intro start seen
    have hcons : escape (c :: rest) = escapeChar c ++ escape rest := List.flatMap_cons
    rw [hcons]
    rcases escapeChar_cases c with ⟨hc, hamp, -⟩ | ⟨body, hc, hbody, hresolve⟩
    · simp only [hc, List.singleton_append, cutFrom, beq_iff_eq, hamp, if_false, ih]
      simp
    · have hholds : ∀ d ∈ body, d ≠ ';' ∧ (d != '&') = true := fun d hd =>
        ⟨(hbody d hd).2.1, bne_iff_ne.2 (hbody d hd).1⟩
      have hcut : cutFrom (· != '&') false seen ('&' :: (body ++ [';']) ++ escape rest) =
          plainPiece seen ++ .reference body :: cutFrom (· != '&') false [] (escape rest) := by
        have := cutFrom_body hholds (escape rest) []
        simpa [cutFrom] using this
      obtain ⟨next, hplain⟩ := expandPieces_plainPiece size start seen
        (.reference body :: cutFrom (· != '&') false [] (escape rest))
      rw [hc, hcut, hplain]
      simp only [expandPieces, hresolve, ih]
      rfl

/-- Expanding gives back the value that was escaped. -/
theorem expand_escape (text : List Char) : expand (escape text) = .ok text :=
  expandPieces_cutFrom_escape _ text 0 []

/-! ## Rows of attributes -/

/-- Attributes as they are written, each after a space. -/
def attributeText (entries : List (String × String)) : List Char :=
  entries.flatMap fun (key, value) => ' ' :: (key.toList ++ '=' :: '"' :: (escape value.toList ++ ['"']))

/-- An attribute cut out of such a text. -/
def writtenAttribute (entry : String × String) : RawAttribute := ⟨entry.1.toList, escape entry.2.toList⟩

theorem attributeText_cons (entry : String × String) (rest : List (String × String)) :
    attributeText (entry :: rest) =
      ' ' :: (entry.1.toList ++ '=' :: '"' :: (escape entry.2.toList ++ '"' :: attributeText rest)) := by
  simp [attributeText]

theorem decode?_writtenAttribute (entry : String × String) : (writtenAttribute entry).decode? = some entry := by
  simp [RawAttribute.decode?, writtenAttribute, expand_escape]

theorem mapM_decode?_written (entries : List (String × String)) :
    (entries.map writtenAttribute).mapM RawAttribute.decode? = some entries := by
  induction entries with
  | nil => rfl
  | cons entry rest ih => simp [List.mapM_cons, decode?_writtenAttribute, ih]

theorem readValue_written (value rest : List Char) :
    readValue (fun _ => 0) ('"' :: (escape value ++ '"' :: rest)) = .ok (escape value, rest) := by
  have hinside : ∀ d ∈ escape value, (d != '"') = true := fun d hd => bne_iff_ne.2 (ne_quote_of_mem_escape hd)
  have hdrop : (escape value ++ '"' :: rest).dropWhile (· != '"') = '"' :: rest := by
    rw [List.dropWhile_append_of_pos hinside]
    rfl
  have htake : (escape value ++ '"' :: rest).takeWhile (· != '"') = escape value := by
    rw [List.takeWhile_append_of_pos hinside, List.takeWhile_cons_of_neg (by simp), List.append_nil]
  have hskip : skipSpace ('"' :: (escape value ++ '"' :: rest)) = '"' :: (escape value ++ '"' :: rest) := rfl
  have hquote : Doctype.isQuote '"' = true := rfl
  simp only [readValue, hskip, hquote, if_true, hdrop, htake]

theorem readAttribute_written {key : List Char} {first : Char} {others : List Char} (hkey : key = first :: others)
    (hname : IsName key) (value rest : List Char) :
    readAttribute (fun _ => 0) [] first (others ++ '=' :: '"' :: (escape value ++ '"' :: rest)) =
      .ok (⟨key, escape value⟩, rest) := by
  have hcontinues : ∀ d ∈ others, continuesKey d = true := by
    intro d hd
    have hchar := hname.isNameChar (hkey ▸ List.mem_cons_of_mem _ hd)
    have hequals : d ≠ '=' := ne_of_isNameChar hchar (by decide)
    simp [continuesKey, isSpace_of_isNameChar hchar, hequals]
  have htake : (others ++ '=' :: '"' :: (escape value ++ '"' :: rest)).takeWhile continuesKey = others := by
    rw [List.takeWhile_append_of_pos hcontinues, List.takeWhile_cons_of_neg (by decide), List.append_nil]
  have hdrop : skipSpace ((others ++ '=' :: '"' :: (escape value ++ '"' :: rest)).dropWhile continuesKey) =
      '=' :: '"' :: (escape value ++ '"' :: rest) := by
    rw [List.dropWhile_append_of_pos hcontinues]
    rfl
  have hcheck : checkKey [] (first :: others) 0 = .ok () := rfl
  simp only [readAttribute, htake, hdrop, hcheck, readValue_written, Except.map, hkey]

/-- A row of attributes cuts into what was written. -/
theorem splitAttributes_attributeText {entries : List (String × String)}
    (h : ∀ entry ∈ entries, IsName entry.1.toList) :
    splitAttributes (attributeText entries) = some (entries.map writtenAttribute) := by
  induction entries with
  | nil => exact splitAttributes_of_nil rfl
  | cons entry rest ih =>
    obtain ⟨hname, hrest⟩ := List.forall_mem_cons.1 h
    cases hkey : entry.1.toList with
    | nil =>
      rw [hkey] at hname
      exact hname.elim
    | cons first others =>
      have hfirst : isSpace first = false := isSpace_of_isNameChar (hname.isNameChar (hkey ▸ List.mem_cons_self))
      have hskip : skipSpace (attributeText (entry :: rest)) =
          first :: (others ++ '=' :: '"' :: (escape entry.2.toList ++ '"' :: attributeText rest)) := by
        rw [attributeText_cons, hkey, skipSpace, List.dropWhile_cons_of_pos (by decide), List.cons_append,
          List.dropWhile_cons_of_neg (by simp [hfirst])]
      rw [splitAttributes_of_ok hskip (readAttribute_written hkey hname _ _), ih hrest]
      rfl

/-- A row with the entries of a dictionary in any order reads as the dictionary. -/
theorem Tag.readAttributes_attributeText {name : List Char} {d : Dictionary} {entries : List (String × String)}
    (horder : entries.Perm d.entries) (h : ∀ entry ∈ entries, IsName entry.1.toList) :
    (⟨name, attributeText entries⟩ : Tag).readAttributes = .ok d := by
  refine readAttributes_eq_ok_iff.2
    ⟨_, entries, splitAttributes_attributeText h, ?_, ?_, (Dictionary.ofList_of_perm horder).symm⟩
  · have hkeys : (entries.map Prod.fst).Nodup := ((horder.map Prod.fst).nodup_iff).2 d.nodup_keys
    rw [List.map_map]
    refine List.pairwise_map.2 ((List.pairwise_map.1 hkeys).imp fun hne heq => hne ?_)
    exact String.toList_inj.1 heq
  · exact mapM_decode?_written entries

/-! ## The end of a tag -/

theorem stepTag_none {c : Char} (h : isNameChar c = true) : stepTag none c = some none := by
  have hend : c ≠ '>' := ne_of_isNameChar h (by decide)
  have hdouble : c ≠ '"' := ne_of_isNameChar h (by decide)
  have hsingle : c ≠ '\'' := ne_of_isNameChar h (by decide)
  simp [stepTag, Doctype.nextQuote, Doctype.isQuote, hend, hdouble, hsingle]

/-- A name leaves a tag open, outside quotes. -/
theorem foldlM_stepTag_name {name : List Char} (h : ∀ c ∈ name, isNameChar c = true) :
    name.foldlM stepTag none = some none := by
  induction name with
  | nil => rfl
  | cons c rest ih =>
    obtain ⟨hc, hrest⟩ := List.forall_mem_cons.1 h
    rw [List.foldlM_cons, stepTag_none hc]
    exact ih hrest

/-- A value leaves a tag open, inside its quotes. -/
theorem foldlM_stepTag_value {text : List Char} (h : ∀ c ∈ text, c ≠ '"') :
    text.foldlM stepTag (some '"') = some (some '"') := by
  induction text with
  | nil => rfl
  | cons c rest ih =>
    obtain ⟨hc, hrest⟩ := List.forall_mem_cons.1 h
    have hstep : stepTag (some '"') c = some (some '"') := by simp [stepTag, Doctype.nextQuote, hc]
    rw [List.foldlM_cons, hstep]
    exact ih hrest

/-- A row of attributes leaves a tag open, outside quotes. -/
theorem foldlM_stepTag_attributeText {entries : List (String × String)}
    (h : ∀ entry ∈ entries, IsName entry.1.toList) : (attributeText entries).foldlM stepTag none = some none := by
  induction entries with
  | nil => rfl
  | cons entry rest ih =>
    obtain ⟨hname, hrest⟩ := List.forall_mem_cons.1 h
    have hkey := foldlM_stepTag_name fun c hc => hname.isNameChar hc
    have hvalue := foldlM_stepTag_value fun c (hc : c ∈ escape entry.2.toList) => ne_quote_of_mem_escape hc
    rw [attributeText_cons, List.foldlM_cons]
    show (entry.1.toList ++ '=' :: '"' :: (escape entry.2.toList ++ '"' :: attributeText rest)).foldlM stepTag none =
      some none
    rw [List.foldlM_append, hkey]
    show (escape entry.2.toList ++ '"' :: attributeText rest).foldlM stepTag (some '"') = some none
    rw [List.foldlM_append, hvalue]
    exact ih hrest

end SvgPlot.Markup
