import SvgPlot.Proofs.TokenTree

/-!
# Spelling an element in tokens

The tokens of an element whose content stands before its children: its tag, its content, its children one after the
other, and its closing tag. An element with neither content nor children may have a tag that is closed at once. Taken in
with room enough, such tokens attach the element to the tree (`Growth.grow_of_spells`).
-/

namespace SvgPlot.Markup

/-- Tokens that are no tags and come to this content. -/
def SpellsContent (content : List Content) (tokens : List Token) : Prop :=
  (∀ token ∈ tokens, token.IsInner) ∧ joined (tokens.flatMap (·.content?.toList)) = content

mutual

/-- Tokens that an element can be written in. -/
inductive Spells : Element → List Token → Prop where
  | closedAtOnce {tag : Tag} {attributes : Dictionary} (hread : tag.readAttributes = .ok attributes) :
      Spells ⟨String.ofList tag.name, attributes, [], []⟩ [.empty tag]
  | tags {tag : Tag} {attributes : Dictionary} {content : List Content} {children : List Element}
      {tokens inner : List Token} (hread : tag.readAttributes = .ok attributes)
      (hcontent : SpellsContent content tokens) (hchildren : SpellsAll children inner) :
      Spells ⟨String.ofList tag.name, attributes, content, children⟩
        (.opening tag :: (tokens ++ (inner ++ [.closing tag.name])))

/-- Tokens that elements in a row can be written in. -/
inductive SpellsAll : List Element → List Token → Prop where
  | nil : SpellsAll [] []
  | cons {e : Element} {es : List Element} {tokens inner : List Token} (hfirst : Spells e tokens)
      (hrest : SpellsAll es inner) : SpellsAll (e :: es) (tokens ++ inner)

end

namespace OpenElement

def addChildren (e : OpenElement) (children : List Element) : OpenElement := children.foldl addChild e

theorem addChildren_eq (children : List Element) :
    ∀ e : OpenElement, e.addChildren children = { e with children := children.reverse ++ e.children } := by
  induction children with
  | nil => exact fun e => rfl
  | cons child rest ih =>
    intro e
    have hcons : e.addChildren (child :: rest) = (e.addChild child).addChildren rest := rfl
    rw [hcons, ih]
    simp [addChild]

end OpenElement

namespace Growth

section

variable {limit : Nat} {root : Option Element} {t : Element}

theorem grow_inner {tokens : List Token} (h : ∀ token ∈ tokens, token.IsInner) (below : List OpenElement)
    (rest : List Token) : ∀ top : OpenElement,
      (of (top :: below) root).grow limit (tokens ++ rest) =
        (of (top.addContents (tokens.flatMap (·.content?.toList)) :: below) root).grow limit rest := by
  induction tokens with
  | nil => exact fun top => rfl
  | cons token tokens ih =>
    intro top
    obtain ⟨hfirst, hothers⟩ := List.forall_mem_cons.1 h
    rw [List.cons_append, grow_of_isInner hfirst, List.modifyHead_cons, ih hothers, List.flatMap_cons,
      OpenElement.addContents_append]

/-- An element that was begun, has taken in the tokens of its content and has all its children closes as it should. -/
theorem close_addChildren {tag : Tag} {attributes : Dictionary} {content : List Content} {tokens : List Token}
    (h : SpellsContent content tokens) (children : List Element) :
    (((OpenElement.begun tag attributes).addContents (tokens.flatMap (·.content?.toList))).addChildren children).close =
      ⟨String.ofList tag.name, attributes, content, children⟩ := by
  have hcontent := OpenElement.content_begun tag attributes (tokens.flatMap (·.content?.toList))
  rw [h.2] at hcontent
  rw [OpenElement.addChildren_eq]
  simp only [OpenElement.close, hcontent, OpenElement.name_addContents, OpenElement.attributes_addContents,
    OpenElement.children_addContents]
  simp [OpenElement.begun]

mutual

/-- The tokens of an element attach it, where there is room for all its levels and for an element at all. -/
theorem grow_of_spells : ∀ (e : Element) {stack : List OpenElement} {tokens rest : List Token}, Spells e tokens →
    stack.length + e.height ≤ limit → (stack = [] → root = none) →
      growAttached limit stack root e rest = .ok t → (of stack root).grow limit (tokens ++ rest) = .ok t
  | ⟨name, attributes, content, children⟩, stack, tokens, rest, hspells, hroom, hfree, hgrow => by
    rw [Element.height] at hroom
    cases hspells with
    | closedAtOnce hread => exact grow_empty_eq_ok_iff.2 ⟨by omega, _, hread, hgrow⟩
    | tags hread hcontent hchildren =>
      refine grow_opening_eq_ok_iff.2 ⟨by omega, hfree, _, hread, ?_⟩
      show grow limit _ (_ ++ (_ ++ [_]) ++ rest) = _
      rw [List.append_assoc, grow_inner hcontent.1, List.append_assoc]
      refine grow_of_spellsAll children hchildren ?_ (grow_closing_cons.2 ?_)
      · rw [List.length_cons]
        omega
      · rw [close_addChildren hcontent]
        exact hgrow

theorem grow_of_spellsAll : ∀ (es : List Element) {top : OpenElement} {below : List OpenElement}
    {tokens rest : List Token}, SpellsAll es tokens → (top :: below).length + Element.heights es ≤ limit →
      (of (top.addChildren es :: below) root).grow limit rest = .ok t →
        (of (top :: below) root).grow limit (tokens ++ rest) = .ok t
  | [], top, below, tokens, rest, hspells, _, hgrow => by
    cases hspells
    exact hgrow
  | e :: es, top, below, tokens, rest, hspells, hroom, hgrow => by
    rw [Element.heights] at hroom
    cases hspells with
    | cons hfirst hrest =>
      rw [List.append_assoc]
      refine grow_of_spells e hfirst (by omega) (fun h => by cases h) ?_
      rw [growAttached_cons]
      refine grow_of_spellsAll es hrest ?_ hgrow
      rw [List.length_cons] at hroom ⊢
      omega

end

end

end Growth

end SvgPlot.Markup
