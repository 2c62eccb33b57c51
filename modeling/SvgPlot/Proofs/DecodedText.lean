import SvgPlot.Markup.PlainText
import SvgPlot.Proofs.ReadTokens

/-!
# Text decoded token by token

Texts and references that stand next to each other become one text in the tree, and what it says is found out by cutting
it into references again. The cuts fall where the tokens ended, whatever stands next to what, so the content of an
element says what its tokens say one by one.

* `Token.plain` is what a single token says, and `plainTextsOf` what the tokens directly in each element say together.
* `PlainText.ofText_text` and `PlainText.ofText_reference` take one token off the front of a text, whatever follows it.
* `Element.plainTexts_eq` reads the texts of all elements off their brackets, and `Element.plainTexts_of_read` is the
  result for a whole markup text.
-/

namespace SvgPlot.Markup

/-! ## What tokens say -/

/-- What a token says in an element. A reference says the one character that it stands for, or else what was written. -/
def Token.plain : Token → PlainText
  | .text raw => ⟨raw, []⟩
  | .reference body =>
    match resolve 1 body with
    | .ok c => ⟨[c], []⟩
    | .error fault =>
      let written := '&' :: body ++ [';']
      ⟨written, [.undecodable (String.ofList written) fault]⟩
  | .cdata raw => ⟨raw, []⟩
  | _ => ⟨[], []⟩

/-- The tokens that stand directly in an element with these tokens after its tag, `level` elements being open inside it.
Tags are left out. -/
def directTokens : (level : Nat) → List Token → List Token
  | _, [] => []
  | 0, .closing _ :: _ => []
  | level, token :: rest =>
    (if level = 0 ∧ token.tag? = none then [token] else []) ++ directTokens (token.levelAfter level) rest

/-- The elements that tokens begin, in order, each with what the tokens directly in it say one after the other. -/
def plainTextsOf : List Token → List (String × PlainText)
  | [] => []
  | .opening tag :: rest =>
    (String.ofList tag.name, PlainText.join ((directTokens 0 rest).map Token.plain)) :: plainTextsOf rest
  | .empty tag :: rest => (String.ofList tag.name, PlainText.join []) :: plainTextsOf rest
  | _ :: rest => plainTextsOf rest

/-- The elements of a tree in document order, each with the text of its content. -/
def Element.plainTexts (e : Element) : List (String × PlainText) :=
  e.rows.map fun (_, e) => (e.name, PlainText.of e.content)

/-! ## One token at the front of a text -/

/-- Up to the next ampersand nothing is cut. -/
theorem cutFrom_text {holds : Char → Bool} {raw : List Char} (h : ∀ c ∈ raw, c ≠ '&') (more : List Char) : ∀ seen,
    cutFrom holds false seen (raw ++ more) = cutFrom holds false (raw.reverse ++ seen) more := by
  induction raw with
  | nil => exact fun seen => rfl
  | cons c raw ih =>
    intro seen
    obtain ⟨hc, hraw⟩ := List.forall_mem_cons.1 h
    rw [List.cons_append, cutFrom, if_neg (by simpa using hc), ih hraw, List.reverse_cons, List.append_assoc,
      List.singleton_append]

/-- A reference ends at the semicolon after its body, whatever follows it. -/
theorem cut_reference (holds : Char → Bool) {body : List Char} (h : ∀ c ∈ body, c ≠ ';' ∧ holds c = true)
    (more : List Char) :
    cut holds ('&' :: body ++ [';'] ++ more) = .reference body :: cut holds more := by
  have hbody := cutFrom_body h more []
  rw [List.reverse_nil, List.nil_append] at hbody
  rw [cut, List.append_assoc, List.cons_append, List.singleton_append, cutFrom, if_pos (beq_self_eq_true _), hbody]
  rfl

namespace PlainText

@[simp] theorem append_empty (t : PlainText) : t.append ⟨[], []⟩ = t := by
  simp [append]

theorem append_assoc (a b c : PlainText) : (a.append b).append c = a.append (b.append c) := by
  simp [append]

theorem join_cons (part : PlainText) (parts : List PlainText) : join (part :: parts) = part.append (join parts) := by
  simp [join, append]

theorem join_append (parts more : List PlainText) : join (parts ++ more) = (join parts).append (join more) := by
  simp [join, append]

theorem join_plainPiece (seen : List Char) : join ((plainPiece seen).map ofPiece) = ⟨seen.reverse, []⟩ := by
  unfold plainPiece
  cases hseen : seen.isEmpty with
  | true =>
    obtain rfl := List.isEmpty_iff.1 hseen
    rfl
  | false => simp [join, ofPiece]

/-- Characters that were seen since the last cut come before what the rest of a text says. -/
theorem join_cutFrom (text : List Char) : ∀ seen,
    join ((cutFrom (fun _ => true) false seen text).map ofPiece) = append ⟨seen.reverse, []⟩ (ofText text) := by
  induction text with
  | nil =>
    intro seen
    exact (join_plainPiece seen).trans (append_empty _).symm
  | cons c rest ih =>
    intro seen
    rw [ofText, cut, cutFrom, cutFrom]
    split
    · -- an ampersand: both cut here, and nothing has been seen before it on the right
      rw [List.map_append, join_append, join_plainPiece]
      rfl
    · rw [ih, ih, ← append_assoc]
      simp [append]

/-- Text without an ampersand is cut off as it is, whatever follows it. -/
theorem ofText_text {raw : List Char} (h : ∀ c ∈ raw, c ≠ '&') (more : List Char) :
    ofText (raw ++ more) = append ⟨raw, []⟩ (ofText more) := by
  rw [ofText, cut, cutFrom_text h, List.append_nil, join_cutFrom, List.reverse_reverse]

theorem expand_reference {body : List Char} (h : ∀ c ∈ body, c ≠ '&' ∧ c ≠ ';') :
    expand ('&' :: body ++ [';']) = (resolve 1 body).map fun c => [c] := by
  have hcut := cut_reference (· != '&') (fun c hc => ⟨(h c hc).2, bne_iff_ne.2 (h c hc).1⟩) []
  rw [List.append_nil] at hcut
  rw [expand, hcut]
  show (resolve 1 body >>= _) = _
  cases resolve 1 body <;> rfl

theorem ofPiece_reference {body : List Char} (h : ∀ c ∈ body, c ≠ '&' ∧ c ≠ ';') :
    ofPiece (.reference body) = (Token.reference body).plain := by
  rw [ofPiece, Piece.text, expand_reference h, Token.plain]
  cases resolve 1 body <;> rfl

/-- A reference is cut off at its own semicolon, and says there what it says alone. -/
theorem ofText_reference {body : List Char} (h : ∀ c ∈ body, c ≠ '&' ∧ c ≠ ';') (more : List Char) :
    ofText ('&' :: body ++ [';'] ++ more) = (Token.reference body).plain.append (ofText more) := by
  rw [ofText, cut_reference _ fun c hc => ⟨(h c hc).2, rfl⟩, List.map_cons, join_cons, ofPiece_reference h]
  rfl

/-- A text in front of other content. -/
theorem of_joined_text {raw : String} {t : PlainText} (h : ∀ more, ofText (raw.toList ++ more) = t.append (ofText more))
    (content : List Content) : of (joined (.text raw :: content)) = t.append (of (joined content)) := by
  have halone (others : List Content) : of (.text raw :: others) = t.append (of others) := by
    have hnil : ofText [] = ⟨[], []⟩ := rfl
    have hraw : ofText raw.toList = t := by simpa [hnil] using h []
    rw [of, List.map_cons, join_cons, ofContent, hraw]
    rfl
  rw [joined]
  cases joined content with
  | nil => exact halone []
  | cons c others =>
    cases c with
    | cdata _ => exact halone _
    | text next =>
      -- the two texts are one in the tree
      simp only [of, List.map_cons, join_cons, ofContent, String.toList_append, h, append_assoc]

/-- Content says what the tokens say that it comes from, one by one. -/
theorem of_joined_tokens {tokens : List Token} (h : ∀ token ∈ tokens, token.IsClean) :
    of (joined (tokens.flatMap (·.content?.toList))) = join (tokens.map Token.plain) := by
  induction tokens with
  | nil => rfl
  | cons token rest ih =>
    obtain ⟨hclean, hrest⟩ := List.forall_mem_cons.1 h
    rw [List.map_cons, join_cons, ← ih hrest]
    cases token with
    | text raw =>
      exact of_joined_text (fun more => by
        rw [String.toList_ofList]
        exact ofText_text (fun c hc => (hclean.2 c hc).1) more) _
    | reference body =>
      exact of_joined_text (fun more => by
        rw [String.toList_ofList]
        exact ofText_reference (fun c hc => ⟨(hclean c hc).1, (hclean c hc).2.1⟩) more) _
    | cdata raw =>
      show of (.cdata (String.ofList raw) :: joined _) = _
      rw [of, List.map_cons, join_cons, ofContent, String.toList_ofList]
      rfl
    | _ => rfl

end PlainText

/-! ## The tokens directly in an element -/

theorem directContent_eq_flatMap (level : Nat) (tokens : List Token) :
    directContent level tokens = (directTokens level tokens).flatMap (·.content?.toList) := by
  fun_induction directTokens level tokens with
  | case1 level => rw [directContent, List.flatMap_nil]
  | case2 name rest => rw [directContent, List.flatMap_nil]
  | case3 level token rest hclosing ih =>
    rw [directContent, ih, List.flatMap_append]
    · cases token <;> by_cases hlevel : level = 0 <;> simp [hlevel, Token.tag?, Token.content?]
    · exact hclosing

theorem mem_of_mem_directTokens {level : Nat} {tokens : List Token} {token : Token}
    (h : token ∈ directTokens level tokens) : token ∈ tokens := by
  fun_induction directTokens level tokens with
  | case1 level => exact h
  | case2 name rest => cases h
  | case3 level first rest hclosing ih =>
    rcases List.mem_append.1 h with h | h
    · split at h
      · rw [List.mem_singleton.1 h]
        exact List.mem_cons_self
      · cases h
    · exact List.mem_cons_of_mem _ (ih h)

/-! ## Texts and brackets -/

/-- The text at the start of an element. -/
def Bracket.plainText? : Bracket → Option (String × PlainText)
  | .start name _ content => some (name, PlainText.of content)
  | .stop _ => none

/-- The texts of the elements that tokens begin are those at their brackets. -/
theorem plainTextsOf_eq {tokens : List Token} (h : ∀ token ∈ tokens, token.IsClean) :
    ∀ {brackets : List Bracket}, bracketsOf tokens = some brackets →
      plainTextsOf tokens = brackets.filterMap Bracket.plainText? := by
  induction tokens with
  | nil =>
    intro brackets hbrackets
    cases hbrackets
    rfl
  | cons token rest ih =>
    intro brackets hbrackets
    obtain ⟨-, hrest⟩ := List.forall_mem_cons.1 h
    cases token with
    | opening tag =>
      obtain ⟨attributes, -, hbrackets⟩ := Option.bind_eq_some_iff.1 hbrackets
      obtain ⟨more, hmore, hbrackets⟩ := Option.bind_eq_some_iff.1 hbrackets
      cases hbrackets
      have hdirect : PlainText.of (joined (directContent 0 rest)) =
          PlainText.join ((directTokens 0 rest).map Token.plain) := by
        rw [directContent_eq_flatMap]
        exact PlainText.of_joined_tokens fun token htoken => hrest token (mem_of_mem_directTokens htoken)
      rw [plainTextsOf, ih hrest hmore, ← hdirect]
      rfl
    | empty tag =>
      obtain ⟨attributes, -, hbrackets⟩ := Option.bind_eq_some_iff.1 hbrackets
      obtain ⟨more, hmore, hbrackets⟩ := Option.bind_eq_some_iff.1 hbrackets
      cases hbrackets
      rw [plainTextsOf, ih hrest hmore]
      rfl
    | closing name =>
      obtain ⟨more, hmore, rfl⟩ := Option.map_eq_some_iff.1 hbrackets
      exact (ih hrest hmore :)
    | _ => exact ih hrest hbrackets

namespace Element

mutual

/-- The elements of a tree come in the order of their brackets. -/
theorem plainTexts_rowsOnto : ∀ (e : Element) (depth : Nat) (tail : List (Nat × Element)),
    (e.rowsOnto depth tail).map (fun (_, e) => (e.name, PlainText.of e.content)) =
      e.brackets.filterMap Bracket.plainText? ++ tail.map fun (_, e) => (e.name, PlainText.of e.content)
  | ⟨name, attributes, content, children⟩, depth, tail => by
    rw [rowsOnto, List.map_cons, plainTexts_rowsOfAllOnto children, brackets]
    simp [Bracket.plainText?]

theorem plainTexts_rowsOfAllOnto : ∀ (es : List Element) (depth : Nat) (tail : List (Nat × Element)),
    (rowsOfAllOnto depth tail es).map (fun (_, e) => (e.name, PlainText.of e.content)) =
      (bracketsOfAll es).filterMap Bracket.plainText? ++ tail.map fun (_, e) => (e.name, PlainText.of e.content)
  | [], depth, tail => rfl
  | e :: rest, depth, tail => by
    rw [rowsOfAllOnto, plainTexts_rowsOnto e, plainTexts_rowsOfAllOnto rest, bracketsOfAll, List.filterMap_append,
      List.append_assoc]

end

theorem plainTexts_eq (e : Element) : e.plainTexts = e.brackets.filterMap Bracket.plainText? :=
  (plainTexts_rowsOnto e 0 []).trans (List.append_nil _)

/-- In the tree of a text, the content of every element says what the tokens directly in it say, each on its own and one
after the other. -/
theorem plainTexts_of_read {limit : Nat} {markup : String} {t : Element} (h : read limit markup = .ok t) :
    t.plainTexts = plainTextsOf (Reading.of (withoutMark markup.toList)).tokens := by
  rw [plainTexts_eq]
  exact (plainTextsOf_eq (fun token => isClean_of_mem_tokens) (bracketsOf_of_read h)).symm

/-- The unknown reference between text and another reference stays as it was written, and changes neither. A semicolon
in text ends nothing, a decoded ampersand begins nothing, and nothing is decoded in a CDATA section. -/
theorem plainTexts_of_read_mixed :
    let markup := "<svg>a;&bad;&#65;<g>x</g>&amp;lt;<![CDATA[&lt;]]></svg>"
    let content : List Content := [.text "a;&bad;&#65;&amp;lt;", .cdata "&lt;"]
    let t : Element := ⟨"svg", Dictionary.empty, content, [⟨"g", Dictionary.empty, [.text "x"], []⟩]⟩
    read 2 markup = .ok t ∧
      t.plainTexts =
        [("svg", ⟨"a;&bad;A&lt;&lt;".toList, [.undecodable "&bad;" (.unknown 1 4 "bad")]⟩), ("g", ⟨['x'], []⟩)] := by
  intro markup content t
  have hread : read 2 markup = .ok t := by decide +kernel
  refine ⟨hread, ?_⟩
  rw [plainTexts_of_read hread]
  decide +kernel

end Element

end SvgPlot.Markup
