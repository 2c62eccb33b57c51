import SvgPlot.Proofs.CanonicalMarkup
import SvgPlot.Proofs.DecodedText

/-!
# The form of content

In a tree that was read, texts do not stand next to each other, none of them is empty, and each is text data: no tag
begins in it and every ampersand begins a reference that is closed (`NormalContent`). Children, comments and CDATA
sections may come between the texts and references that a text is put together of, so this is shown of all that is open
or complete while the tree grows.

* `IsTextData.closesReferences` says what text data looks like at its ampersands, and
  `IsTextData.unterminated_notMem_cut` that it is cut into references that have their ends.
* `PlainText.unterminated_notMem_kept` says that normal content keeps no reference for lack of its end.
* `Growth.IsNormal` holds of a tree that is put together of clean tokens: at first, after each step and after a run.
* `Element.content_of_read` is the result for the tree of a text.
-/

namespace SvgPlot.Markup

/-! ## Text data -/

/-- After every ampersand comes a semicolon, and neither an ampersand nor a `<` stands between the two. -/
def ClosesReferences (text : List Char) : Prop :=
  ∀ before after, text = before ++ '&' :: after →
    ∃ body more, after = body ++ ';' :: more ∧ ∀ c ∈ body, c ≠ '&' ∧ c ≠ '<'

/-- Characters that are no ampersands do not matter in front of a text. -/
theorem ClosesReferences.append_left {text front : List Char} (h : ClosesReferences text) (hfront : '&' ∉ front) :
    ClosesReferences (front ++ text) := by
  intro before after heq
  rcases List.append_eq_append_iff.1 heq with ⟨between, rfl, htext⟩ | ⟨between, rfl, htext⟩
  · exact h between after htext
  · cases between with
    | nil => exact h [] after htext.symm
    | cons c between =>
      obtain ⟨rfl, -⟩ := List.cons.inj htext
      exact absurd (List.mem_append_right before List.mem_cons_self) hfront

namespace IsTextData

theorem of_plain {text : List Char} (h : ∀ c ∈ text, c ≠ '&' ∧ c ≠ '<') : IsTextData text := by
  induction text with
  | nil => exact .nil
  | cons c rest ih =>
    obtain ⟨⟨hamp, hlt⟩, hrest⟩ := List.forall_mem_cons.1 h
    exact .plain hamp hlt (ih hrest)

theorem append {text more : List Char} (h : IsTextData text) (hmore : IsTextData more) :
    IsTextData (text ++ more) := by
  induction h with
  | nil => exact hmore
  | plain hamp hlt _ ih => exact .plain hamp hlt ih
  | @reference body rest hbody _ ih =>
    rw [List.cons_append, List.append_assoc, List.cons_append]
    exact .reference hbody ih

theorem notMem {text : List Char} (h : IsTextData text) : '<' ∉ text := by
  induction h with
  | nil => exact List.not_mem_nil
  | plain _ hlt _ ih => exact List.not_mem_cons_of_ne_of_not_mem hlt.symm ih
  | @reference body rest hbody _ ih =>
    have hinner : '<' ∉ body := fun hmem => (hbody '<' hmem).2.2 rfl
    simp [hinner, ih]

theorem closesReferences {text : List Char} (h : IsTextData text) : ClosesReferences text := by
  induction h with
  | nil =>
    intro before after heq
    simp at heq
  | @plain c rest hamp _ _ ih =>
    have hfront : '&' ∉ [c] := by simpa using hamp.symm
    exact ih.append_left hfront
  | @reference body rest hbody _ ih =>
    intro before after heq
    cases before with
    | nil =>
      obtain ⟨-, rfl⟩ := List.cons.inj heq
      exact ⟨body, rest, rfl, fun c hc => ⟨(hbody c hc).1, (hbody c hc).2.2⟩⟩
    | cons c before =>
      -- a later ampersand stands after the end of this reference
      have hfront : '&' ∉ body ++ [';'] := by
        have hinner : '&' ∉ body := fun hmem => (hbody '&' hmem).1 rfl
        simp [hinner]
      have hrest : body ++ [';'] ++ rest = before ++ '&' :: after := by
        simpa using (List.cons.inj heq).2
      exact ih.append_left hfront before after hrest

/-- Where text data is cut, every reference has its end. -/
theorem unterminated_notMem_cutFrom {text : List Char} (h : IsTextData text) (left : List Char) :
    ∀ seen, Piece.unterminated left ∉ cutFrom (fun _ => true) false seen text := by
  have hplain (seen : List Char) : Piece.unterminated left ∉ plainPiece seen := by
    unfold plainPiece
    split <;> simp
  induction h with
  | nil => exact hplain
  | @plain c rest hamp _ _ ih =>
    intro seen
    rw [cutFrom, if_neg (by simpa using hamp)]
    exact ih (c :: seen)
  | @reference body rest hbody _ ih =>
    intro seen
    rw [cutFrom, if_pos (beq_self_eq_true _), cutFrom_body fun c hc => ⟨(hbody c hc).2.1, rfl⟩]
    simp [hplain, ih]

theorem unterminated_notMem_cut {text : List Char} (h : IsTextData text) (left : List Char) :
    Piece.unterminated left ∉ cut (fun _ => true) text :=
  h.unterminated_notMem_cutFrom left []

end IsTextData

/-! ## Content -/

/-- Text data that is not empty, or a CDATA section. -/
def Content.IsNormal : Content → Prop
  | .text raw => raw.toList ≠ [] ∧ IsTextData raw.toList
  | .cdata _ => True

/-- No text stands next to another, and every text is text data that is not empty. -/
structure NormalContent (content : List Content) : Prop where
  apart : TextsApart content
  pieces : ∀ c ∈ content, c.IsNormal

namespace NormalContent

variable {content : List Content}

theorem nil : NormalContent [] := ⟨.nil, List.forall_mem_nil _⟩

theorem reverse (h : NormalContent content) : NormalContent content.reverse :=
  ⟨List.isChain_reverse.2 (h.apart.imp fun _ _ hab hba => hab hba.symm),
    fun c hc => h.pieces c (List.mem_reverse.1 hc)⟩

theorem cons_cdata (h : NormalContent content) (raw : String) : NormalContent (.cdata raw :: content) :=
  ⟨List.isChain_cons.2 ⟨fun _ _ htexts => htexts.1, h.apart⟩, List.forall_mem_cons.2 ⟨trivial, h.pieces⟩⟩

/-- A text joins with the text before it, if there is one. -/
theorem pushText (h : NormalContent content) {raw : String} (hraw : (Content.text raw).IsNormal) :
    NormalContent (Content.pushText raw content) := by
  rcases content with _ | ⟨before | before, rest⟩
  · exact ⟨.singleton _, List.forall_mem_singleton.2 hraw⟩
  · obtain ⟨hnext, hrest⟩ := List.isChain_cons.1 h.apart
    obtain ⟨hbefore, hothers⟩ := List.forall_mem_cons.1 h.pieces
    have hjoined : (Content.text (before ++ raw)).IsNormal := by
      rw [Content.IsNormal, String.toList_append]
      exact ⟨List.append_ne_nil_of_left_ne_nil hbefore.1 _, hbefore.2.append hraw.2⟩
    exact ⟨List.isChain_cons.2 ⟨hnext, hrest⟩, List.forall_mem_cons.2 ⟨hjoined, hothers⟩⟩
  · have hnext : ∀ c ∈ (Content.cdata before :: rest).head?, ¬ ((Content.text raw).IsText ∧ c.IsText) := by
      intro c hc htexts
      cases hc
      exact htexts.2
    exact ⟨List.isChain_cons.2 ⟨hnext, h.apart⟩, List.forall_mem_cons.2 ⟨hraw, h.pieces⟩⟩

end NormalContent

/-- What a clean token adds to content is normal. -/
theorem Token.IsClean.isNormal {token : Token} (h : token.IsClean) {c : Content} (hc : token.content? = some c) :
    c.IsNormal := by
  cases token with
  | text raw =>
    cases hc
    rw [Content.IsNormal, String.toList_ofList]
    exact ⟨h.1, .of_plain h.2⟩
  | reference body =>
    cases hc
    rw [Content.IsNormal, String.toList_ofList]
    exact ⟨List.cons_ne_nil _ _, .reference h .nil⟩
  | cdata raw =>
    cases hc
    trivial
  | _ => cases hc

namespace PlainText

/-- A reference is kept as unterminated only where it is cut off without its end. -/
theorem exists_of_mem_kept_ofText {raw : List Char} {written : String}
    (h : KeptReference.unterminated written ∈ (ofText raw).kept) :
    ∃ left, Piece.unterminated left ∈ cut (fun _ => true) raw := by
  rw [ofText, join, List.mem_flatMap] at h
  obtain ⟨part, hpart, hkept⟩ := h
  obtain ⟨piece, hpiece, rfl⟩ := List.mem_map.1 hpart
  cases piece with
  | plain text => cases hkept
  | unterminated left => exact ⟨left, hpiece⟩
  | reference body =>
    rw [ofPiece] at hkept
    cases hexpand : expand (Piece.reference body).text <;> simp [hexpand] at hkept

theorem unterminated_notMem_kept {content : List Content} (h : NormalContent content) (written : String) :
    KeptReference.unterminated written ∉ (of content).kept := by
  intro hmem
  rw [of, join, List.mem_flatMap] at hmem
  obtain ⟨part, hpart, hkept⟩ := hmem
  obtain ⟨c, hc, rfl⟩ := List.mem_map.1 hpart
  cases c with
  | text raw =>
    obtain ⟨left, hleft⟩ := exists_of_mem_kept_ofText hkept
    exact (h.pieces _ hc).2.unterminated_notMem_cut left hleft
  | cdata raw => cases hkept

-- content that was put together in another way may leave a reference open
example : (of [.text "a & b"]).kept = [.unterminated "& b"] := by decide

end PlainText

/-! ## Elements -/

namespace Element

/-- The elements of the tree, each before its children. -/
def preorder (e : Element) : List Element := e.rows.map Prod.snd

mutual

/-- Which elements come in a row does not depend on the depth that is counted from. -/
theorem map_snd_rowsOnto : ∀ (e : Element) (depth : Nat) (tail : List (Nat × Element)),
    (e.rowsOnto depth tail).map Prod.snd = e.preorder ++ tail.map Prod.snd
  | ⟨name, attributes, content, children⟩, depth, tail => by
    rw [preorder, rows, rowsOnto, rowsOnto, List.map_cons, List.map_cons, map_snd_rowsOfAllOnto children (depth + 1),
      map_snd_rowsOfAllOnto children (0 + 1) []]
    simp only [List.map_nil, List.append_nil, List.cons_append]

theorem map_snd_rowsOfAllOnto : ∀ (es : List Element) (depth : Nat) (tail : List (Nat × Element)),
    (rowsOfAllOnto depth tail es).map Prod.snd = es.flatMap preorder ++ tail.map Prod.snd
  | [], depth, tail => rfl
  | e :: rest, depth, tail => by
    rw [rowsOfAllOnto, map_snd_rowsOnto e, map_snd_rowsOfAllOnto rest, List.flatMap_cons, List.append_assoc]

end

theorem preorder_eq (e : Element) : e.preorder = e :: e.children.flatMap preorder := by
  obtain ⟨name, attributes, content, children⟩ := e
  rw [preorder, rows, rowsOnto, List.map_cons, map_snd_rowsOfAllOnto, List.map_nil, List.append_nil]

/-- All content in the tree is normal. -/
def IsNormal (e : Element) : Prop := ∀ x ∈ e.preorder, NormalContent x.content

theorem isNormal_iff {e : Element} :
    e.IsNormal ↔ NormalContent e.content ∧ ∀ child ∈ e.children, child.IsNormal := by
  simp only [IsNormal, preorder_eq e, List.forall_mem_cons, List.forall_mem_flatMap]

mutual

theorem IsNormal.of_mem_preorder : ∀ {t e : Element}, t.IsNormal → e ∈ t.preorder → e.IsNormal
  | ⟨name, attributes, content, children⟩, e, h, he => by
    rw [preorder_eq, List.mem_cons] at he
    rcases he with rfl | he
    · exact h
    · exact isNormal_of_mem_flatMap (isNormal_iff.1 h).2 he

theorem isNormal_of_mem_flatMap : ∀ {ts : List Element} {e : Element}, (∀ t ∈ ts, t.IsNormal) →
    e ∈ ts.flatMap preorder → e.IsNormal
  | [], e, _, he => by cases he
  | t :: rest, e, h, he => by
    obtain ⟨hfirst, hrest⟩ := List.forall_mem_cons.1 h
    rw [List.flatMap_cons, List.mem_append] at he
    rcases he with he | he
    · exact hfirst.of_mem_preorder he
    · exact isNormal_of_mem_flatMap hrest he

end

end Element

/-- The content so far is normal, and so is all content in the children that are complete. -/
structure OpenElement.IsNormal (e : OpenElement) : Prop where
  content : NormalContent e.content
  children : ∀ child ∈ e.children, child.IsNormal

namespace OpenElement.IsNormal

variable {e : OpenElement}

theorem begun (tag : Tag) (attributes : Dictionary) : (OpenElement.begun tag attributes).IsNormal :=
  ⟨.nil, List.forall_mem_nil _⟩

theorem addChild (h : e.IsNormal) {child : Element} (hchild : child.IsNormal) : (e.addChild child).IsNormal :=
  ⟨h.content, List.forall_mem_cons.2 ⟨hchild, h.children⟩⟩

theorem addContent (h : e.IsNormal) {c : Content} (hc : c.IsNormal) : (e.addContent c).IsNormal := by
  cases c with
  | text raw => exact ⟨h.content.pushText hc, h.children⟩
  | cdata raw => exact ⟨h.content.cons_cdata raw, h.children⟩

theorem close (h : e.IsNormal) : e.close.IsNormal :=
  Element.isNormal_iff.2 ⟨h.content.reverse, fun child hchild => h.children child (List.mem_reverse.1 hchild)⟩

end OpenElement.IsNormal

/-! ## The growing tree -/

namespace Growth

/-- All content is normal that is open or complete. -/
structure IsNormal (g : Growth) : Prop where
  stack : ∀ e ∈ g.stack, e.IsNormal
  root : ∀ e ∈ g.root, e.IsNormal

section

variable {limit : Nat} {g next : Growth}

theorem IsNormal.attach {stack : List OpenElement} {root : Option Element} (h : (of stack root).IsNormal) {e : Element}
    (he : e.IsNormal) (hnext : (of stack root).attach e = .ok next) : next.IsNormal := by
  rcases attach_eq_ok_iff.1 hnext with ⟨top, below, rfl, rfl⟩ | ⟨rfl, -, rfl⟩
  · obtain ⟨htop, hbelow⟩ := List.forall_mem_cons.1 h.stack
    exact ⟨List.forall_mem_cons.2 ⟨htop.addChild he, hbelow⟩, h.root⟩
  · refine ⟨List.forall_mem_nil _, fun root hroot => ?_⟩
    cases hroot
    exact he

/-- A step with a clean token keeps content normal: an element begins with none, what is added joins with the text
before it, and an element that is closed has all its content. -/
theorem IsNormal.step {token : Token} (h : g.IsNormal) (hclean : token.IsClean)
    (hnext : g.step limit token = .ok next) : next.IsNormal := by
  rw [g.eq_of] at h hnext
  generalize g.stack = stack, g.root = root at h hnext
  rcases token.cases_tag with ⟨tag, rfl⟩ | ⟨tag, rfl⟩ | ⟨name, rfl⟩ | hinner
  · obtain ⟨-, -, attributes, -, rfl⟩ := step_opening_eq_ok_iff.1 hnext
    exact ⟨List.forall_mem_cons.2 ⟨.begun tag attributes, h.stack⟩, h.root⟩
  · obtain ⟨-, attributes, -, hattach⟩ := step_empty_eq_ok_iff.1 hnext
    exact h.attach (OpenElement.IsNormal.begun tag attributes).close hattach
  · obtain ⟨top, below, rfl, hattach⟩ := step_closing_eq_ok_iff.1 hnext
    obtain ⟨htop, hbelow⟩ := List.forall_mem_cons.1 h.stack
    exact IsNormal.attach ⟨hbelow, h.root⟩ htop.close hattach
  · rw [step_of_isInner hinner] at hnext
    cases hnext
    refine ⟨?_, h.root⟩
    cases stack with
    | nil => exact List.forall_mem_nil _
    | cons top below =>
      obtain ⟨htop, hbelow⟩ := List.forall_mem_cons.1 h.stack
      refine List.forall_mem_cons.2 ⟨?_, hbelow⟩
      cases hcontent : token.content? with
      | none => exact htop
      | some c => exact htop.addContent (hclean.isNormal hcontent)

theorem IsNormal.run {tokens : List Token} (h : g.IsNormal) (hclean : ∀ token ∈ tokens, token.IsClean)
    (hnext : g.run limit tokens = .ok next) : next.IsNormal := by
  induction tokens generalizing g with
  | nil =>
    cases hnext
    exact h
  | cons token rest ih =>
    rw [run, List.foldlM_cons, bind_eq_ok_iff] at hnext
    obtain ⟨middle, hstep, hrun⟩ := hnext
    obtain ⟨hfirst, hrest⟩ := List.forall_mem_cons.1 hclean
    exact ih (h.step hfirst hstep) hrest hrun

end

theorem isNormal_start : start.IsNormal := ⟨List.forall_mem_nil _, fun _ h => by cases h⟩

theorem finish_eq_ok_iff {g : Growth} {t : Element} : g.finish = .ok t ↔ g.stack = [] ∧ g.root = some t := by
  rw [g.eq_of]
  exact @grow_nil_eq_ok_iff 0 g.stack g.root t

end Growth

namespace Element

theorem isNormal_of_ofTokens {limit : Nat} {tokens : List Token} {t : Element}
    (hclean : ∀ token ∈ tokens, token.IsClean) (h : ofTokens limit tokens = .ok t) : t.IsNormal := by
  obtain ⟨g, hrun, hfinish⟩ := bind_eq_ok_iff.1 h
  obtain ⟨-, hroot⟩ := Growth.finish_eq_ok_iff.1 hfinish
  exact (Growth.isNormal_start.run hclean hrun).root t hroot

theorem isNormal_of_read {limit : Nat} {markup : String} {t : Element} (h : read limit markup = .ok t) : t.IsNormal :=
  isNormal_of_ofTokens (fun _ htoken => isClean_of_mem_tokens htoken) (read_eq_ok_iff.1 h).2

/-- In the tree of a text, no element has a text next to another, an empty text, a text with a `<` in it, or one with an
ampersand that no semicolon follows before another ampersand or a `<`. So texts are cut into references that have their
ends, and none is kept for lack of one. -/
theorem content_of_read {limit : Nat} {markup : String} {t : Element} (h : read limit markup = .ok t) :
    ∀ e ∈ t.preorder,
      TextsApart e.content ∧
        (∀ raw, .text raw ∈ e.content →
          raw ≠ "" ∧ '<' ∉ raw.toList ∧ ClosesReferences raw.toList ∧
            ∀ left, Piece.unterminated left ∉ cut (fun _ => true) raw.toList) ∧
        ∀ written, KeptReference.unterminated written ∉ (PlainText.of e.content).kept := by
  intro e he
  have hnormal := isNormal_of_read h e he
  refine ⟨hnormal.apart, fun raw hraw => ?_, PlainText.unterminated_notMem_kept hnormal⟩
  obtain ⟨hsome, hdata⟩ := hnormal.pieces _ hraw
  exact ⟨mt String.toList_eq_nil_iff.2 hsome, hdata.notMem, hdata.closesReferences, hdata.unterminated_notMem_cut⟩

/-- Text that goes on behind a child and a comment, an unknown reference, and text after a CDATA section. -/
theorem content_of_read_mixed :
    let markup := "<svg>a&b;<g>;</g>;c<!-- & --><![CDATA[&<]]>&#60;</svg>"
    let g : Element := ⟨"g", Dictionary.empty, [.text ";"], []⟩
    let t : Element := ⟨"svg", Dictionary.empty, [.text "a&b;;c", .cdata "&<", .text "&#60;"], [g]⟩
    read 2 markup = .ok t ∧ t ∈ t.preorder ∧ .text "a&b;;c" ∈ t.content ∧ TextsApart t.content ∧
      '<' ∉ "a&b;;c".toList ∧
      "a&b;;c".toList = ['a'] ++ '&' :: "b;;c".toList ∧
      (∃ body more, "b;;c".toList = body ++ ';' :: more ∧ ∀ c ∈ body, c ≠ '&' ∧ c ≠ '<') ∧
      Piece.unterminated "b;;c".toList ∉ cut (fun _ => true) "a&b;;c".toList ∧
      KeptReference.unterminated "&b;;c" ∉ (PlainText.of t.content).kept := by
  intro markup g t
  have hread : read 2 markup = .ok t := by decide +kernel
  have hroot : t ∈ t.preorder := by
    rw [preorder_eq]
    exact List.mem_cons_self
  have hmem : .text "a&b;;c" ∈ t.content := List.mem_cons_self
  have hsplit : "a&b;;c".toList = ['a'] ++ '&' :: "b;;c".toList := by decide +kernel
  obtain ⟨hapart, htexts, hkept⟩ := content_of_read hread t hroot
  obtain ⟨-, hless, hcloses, hcut⟩ := htexts "a&b;;c" hmem
  exact ⟨hread, hroot, hmem, hapart, hless, hsplit, hcloses _ _ hsplit, hcut _, hkept _⟩

end Element

end SvgPlot.Markup
