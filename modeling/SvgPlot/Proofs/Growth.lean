import SvgPlot.Markup.Tree

/-!
# Steps of a growing tree

What one token does to a tree that is being put together. The depth of a tree is the number of its open elements, so a
tree is given here by these and the root (`Growth.of`). Each lemma below says when a step succeeds and what it gives;
nothing else is used of `Growth.step` later on.

A tree grows by three kinds of steps: an element is opened, an element is closed, or something is added to the innermost
open element (`Token.IsInner`).
-/

namespace SvgPlot.Markup

/-- The tag that a token begins an element with. -/
def Token.tag? : Token → Option Tag
  | .opening tag | .empty tag => some tag
  | _ => none

/-- What a token adds to the content of the element it stands in. -/
def Token.content? : Token → Option Content
  | .text raw => some (.text (String.ofList raw))
  | .reference body => some (.text (String.ofList ('&' :: body ++ [';'])))
  | .cdata raw => some (.cdata (String.ofList raw))
  | _ => none

/-- A token that opens nothing and closes nothing. -/
def Token.IsInner : Token → Prop
  | .opening _ | .empty _ | .closing _ => False
  | _ => True

/-- A token begins an element, ends one, or does neither. -/
theorem Token.cases_tag (token : Token) :
    (∃ tag, token = .opening tag) ∨ (∃ tag, token = .empty tag) ∨ (∃ name, token = .closing name) ∨ token.IsInner := by
  cases token <;> simp [IsInner]

theorem bind_eq_ok_iff {ε α β : Type} {x : Except ε α} {f : α → Except ε β} {b : β} :
    (x >>= f) = .ok b ↔ ∃ a, x = .ok a ∧ f a = .ok b := by
  cases x <;> simp [bind, Except.bind]

theorem toOption_eq_some_iff {ε α : Type} {x : Except ε α} {a : α} : x.toOption = some a ↔ x = .ok a := by
  cases x <;> simp [Except.toOption]

namespace OpenElement

/-- The element that a tag with these attributes opens. -/
def begun (tag : Tag) (attributes : Dictionary) : OpenElement := ⟨String.ofList tag.name, attributes, [], []⟩

def addContent (e : OpenElement) : Content → OpenElement
  | .text raw => e.addText raw
  | .cdata raw => e.addCData raw

def addContents (e : OpenElement) (content : List Content) : OpenElement := content.foldl addContent e

@[simp] theorem addContents_nil (e : OpenElement) : e.addContents [] = e := rfl

theorem addContents_append (e : OpenElement) (content more : List Content) :
    e.addContents (content ++ more) = (e.addContents content).addContents more :=
  List.foldl_append

@[simp] theorem name_addContents (e : OpenElement) (content : List Content) :
    (e.addContents content).name = e.name := by
  induction content generalizing e with
  | nil => rfl
  | cons c rest ih => exact (ih (e.addContent c)).trans (by cases c <;> rfl)

@[simp] theorem attributes_addContents (e : OpenElement) (content : List Content) :
    (e.addContents content).attributes = e.attributes := by
  induction content generalizing e with
  | nil => rfl
  | cons c rest ih => exact (ih (e.addContent c)).trans (by cases c <;> rfl)

@[simp] theorem children_addContents (e : OpenElement) (content : List Content) :
    (e.addContents content).children = e.children := by
  induction content generalizing e with
  | nil => rfl
  | cons c rest ih => exact (ih (e.addContent c)).trans (by cases c <;> rfl)

/-- Content and children are added apart from each other. -/
theorem addContents_addChild (e : OpenElement) (child : Element) (content : List Content) :
    (e.addChild child).addContents content = (e.addContents content).addChild child := by
  induction content generalizing e with
  | nil => rfl
  | cons c rest ih =>
    have hcomm : (e.addChild child).addContent c = (e.addContent c).addChild child := by cases c <;> rfl
    rw [addContents, List.foldl_cons, hcomm]
    exact ih (e.addContent c)

theorem ofTag_eq_ok_iff {tag : Tag} {e : OpenElement} :
    ofTag tag = .ok e ↔ ∃ attributes, tag.readAttributes = .ok attributes ∧ e = begun tag attributes := by
  unfold ofTag
  cases tag.readAttributes with
  | error fault => simp
  | ok attributes => simp [begun, eq_comm]

end OpenElement

namespace Growth

/-- The tree with these open elements, innermost first, and this root. -/
def of (stack : List OpenElement) (root : Option Element) : Growth := ⟨stack, root, stack.length, rfl⟩

theorem eq_of (g : Growth) : g = of g.stack g.root := by
  obtain ⟨stack, root, depth, rfl⟩ := g
  rfl

section

variable {limit : Nat} {stack : List OpenElement} {root : Option Element} {next : Growth}

theorem attach_eq_ok_iff {e : Element} :
    (of stack root).attach e = .ok next ↔
      (∃ top below, stack = top :: below ∧ next = of (top.addChild e :: below) root) ∨
        stack = [] ∧ root = none ∧ next = of [] (some e) := by
  cases stack with
  | cons top below =>
    constructor
    · intro h
      cases h
      exact .inl ⟨top, below, rfl, rfl⟩
    · intro h
      rcases h with ⟨top', below', heq, rfl⟩ | ⟨heq, -⟩
      · cases heq
        rfl
      · cases heq
  | nil => cases root <;> simp [attach, of, eq_comm]

theorem step_opening_eq_ok_iff {tag : Tag} :
    (of stack root).step limit (.opening tag) = .ok next ↔
      stack.length < limit ∧ (stack = [] → root = none) ∧
        ∃ attributes, tag.readAttributes = .ok attributes ∧ next = of (.begun tag attributes :: stack) root := by
  simp only [step]
  split
  · rename_i hlimit
    have : ¬stack.length < limit := Nat.not_lt.2 hlimit
    simp [this]
  · rename_i hlimit
    have hlt : stack.length < limit := Nat.lt_of_not_le hlimit
    split
    · rename_i hroot
      have : ¬(stack = [] → root = none) := by
        simp only [of, Bool.and_eq_true, List.isEmpty_iff, Option.isSome_iff_ne_none] at hroot
        exact fun h => hroot.2 (h hroot.1)
      simp [this]
    · rename_i hroot
      have : stack = [] → root = none := by
        simp only [of, Bool.and_eq_true, List.isEmpty_iff, Option.isSome_iff_ne_none, not_and,
          Decidable.not_not] at hroot
        exact hroot
      rw [bind_eq_ok_iff]
      simp only [OpenElement.ofTag_eq_ok_iff]
      constructor
      · intro h
        obtain ⟨_, ⟨attributes, hread, rfl⟩, hnext⟩ := h
        cases hnext
        exact ⟨hlt, this, attributes, hread, rfl⟩
      · intro h
        obtain ⟨-, -, attributes, hread, rfl⟩ := h
        exact ⟨_, ⟨attributes, hread, rfl⟩, rfl⟩

theorem step_empty_eq_ok_iff {tag : Tag} :
    (of stack root).step limit (.empty tag) = .ok next ↔
      stack.length < limit ∧ ∃ attributes, tag.readAttributes = .ok attributes ∧
        (of stack root).attach (OpenElement.begun tag attributes).close = .ok next := by
  simp only [step]
  split
  · rename_i hlimit
    have : ¬stack.length < limit := Nat.not_lt.2 hlimit
    simp [this]
  · rename_i hlimit
    have hlt : stack.length < limit := Nat.lt_of_not_le hlimit
    rw [bind_eq_ok_iff]
    simp only [OpenElement.ofTag_eq_ok_iff]
    constructor
    · intro h
      obtain ⟨_, ⟨attributes, hread, rfl⟩, hattach⟩ := h
      exact ⟨hlt, attributes, hread, hattach⟩
    · intro h
      obtain ⟨-, attributes, hread, hattach⟩ := h
      exact ⟨_, ⟨attributes, hread, rfl⟩, hattach⟩

theorem step_closing_eq_ok_iff {name : List Char} :
    (of stack root).step limit (.closing name) = .ok next ↔
      ∃ top below, stack = top :: below ∧ (of below root).attach top.close = .ok next := by
  cases stack with
  | nil => simp [step, of]
  | cons top below =>
    constructor
    · exact fun h => ⟨top, below, rfl, h⟩
    · intro h
      obtain ⟨top', below', heq, h⟩ := h
      cases heq
      exact h

/-- A token that is no tag adds what it has to the innermost open element, or is dropped if there is none. -/
theorem step_of_isInner {token : Token} (h : token.IsInner) :
    (of stack root).step limit token =
      .ok (of (stack.modifyHead (·.addContents token.content?.toList)) root) := by
  cases token <;> cases stack <;> first | exact h.elim | rfl

end

/-! ## All tokens that are left -/

/-- The tree that comes of a growing one with the tokens that are left. -/
def grow (limit : Nat) (g : Growth) (tokens : List Token) : Except TreeError Element := do
  (← g.run limit tokens).finish

section

variable {limit : Nat} {stack : List OpenElement} {root : Option Element} {token : Token} {rest : List Token}
  {t : Element}

theorem grow_nil_eq_ok_iff : (of stack root).grow limit [] = .ok t ↔ stack = [] ∧ root = some t := by
  rcases stack with _ | ⟨top, below⟩ <;> rcases root with _ | e <;>
    simp [grow, run, finish, of, bind, Except.bind, pure, Except.pure]

theorem grow_cons_eq_ok_iff {g : Growth} :
    g.grow limit (token :: rest) = .ok t ↔ ∃ next, g.step limit token = .ok next ∧ next.grow limit rest = .ok t := by
  have hassoc : g.grow limit (token :: rest) = g.step limit token >>= fun next => next.grow limit rest := by
    simp only [grow, run, List.foldlM_cons]
    cases g.step limit token <;> rfl
  rw [hassoc, bind_eq_ok_iff]

theorem grow_opening_eq_ok_iff {tag : Tag} :
    (of stack root).grow limit (.opening tag :: rest) = .ok t ↔
      stack.length < limit ∧ (stack = [] → root = none) ∧ ∃ attributes, tag.readAttributes = .ok attributes ∧
        (of (.begun tag attributes :: stack) root).grow limit rest = .ok t := by
  simp only [grow_cons_eq_ok_iff, step_opening_eq_ok_iff]
  constructor
  · intro h
    obtain ⟨_, ⟨hlt, hroot, attributes, hread, rfl⟩, hgrow⟩ := h
    exact ⟨hlt, hroot, attributes, hread, hgrow⟩
  · intro h
    obtain ⟨hlt, hroot, attributes, hread, hgrow⟩ := h
    exact ⟨_, ⟨hlt, hroot, attributes, hread, rfl⟩, hgrow⟩

/-- What comes of a tree with an element attached to it. -/
def growAttached (limit : Nat) (stack : List OpenElement) (root : Option Element) (e : Element)
    (rest : List Token) : Except TreeError Element := do
  (← (of stack root).attach e).grow limit rest

theorem growAttached_cons {top : OpenElement} {below : List OpenElement} {e : Element} :
    growAttached limit (top :: below) root e rest = (of (top.addChild e :: below) root).grow limit rest := rfl

theorem growAttached_nil {e : Element} : growAttached limit [] none e rest = (of [] (some e)).grow limit rest := rfl

theorem growAttached_some {e e' : Element} :
    growAttached limit [] (some e') e rest = .error (.malformed .multipleRoots) := rfl

theorem grow_empty_eq_ok_iff {tag : Tag} :
    (of stack root).grow limit (.empty tag :: rest) = .ok t ↔
      stack.length < limit ∧ ∃ attributes, tag.readAttributes = .ok attributes ∧
        growAttached limit stack root (OpenElement.begun tag attributes).close rest = .ok t := by
  simp only [grow_cons_eq_ok_iff, step_empty_eq_ok_iff, growAttached, bind_eq_ok_iff]
  constructor
  · intro h
    obtain ⟨next, ⟨hlt, attributes, hread, hattach⟩, hgrow⟩ := h
    exact ⟨hlt, attributes, hread, next, hattach, hgrow⟩
  · intro h
    obtain ⟨hlt, attributes, hread, next, hattach, hgrow⟩ := h
    exact ⟨next, ⟨hlt, attributes, hread, hattach⟩, hgrow⟩

theorem grow_closing_cons {name : List Char} {top : OpenElement} {below : List OpenElement} :
    (of (top :: below) root).grow limit (.closing name :: rest) = .ok t ↔
      growAttached limit below root top.close rest = .ok t := by
  simp only [grow_cons_eq_ok_iff, step_closing_eq_ok_iff, growAttached, bind_eq_ok_iff]
  constructor
  · intro h
    obtain ⟨next, ⟨top', below', heq, hattach⟩, hgrow⟩ := h
    cases heq
    exact ⟨next, hattach, hgrow⟩
  · intro h
    obtain ⟨next, hattach, hgrow⟩ := h
    exact ⟨next, ⟨top, below, rfl, hattach⟩, hgrow⟩

theorem grow_of_isInner (h : token.IsInner) :
    (of stack root).grow limit (token :: rest) =
      (of (stack.modifyHead (·.addContents token.content?.toList)) root).grow limit rest := by
  simp only [grow, run, List.foldlM_cons, step_of_isInner h]
  rfl

end

end Growth

namespace Element

theorem ofTokens_eq_grow (limit : Nat) (tokens : List Token) :
    ofTokens limit tokens = (Growth.of [] none).grow limit tokens := rfl

/-- A text gives a tree if it can be read to its end and its tokens give the tree. -/
theorem read_eq_ok_iff {limit : Nat} {markup : String} {t : Element} :
    read limit markup = .ok t ↔
      (Reading.of (withoutMark markup.toList)).stop = none ∧
        ofTokens limit (Reading.of (withoutMark markup.toList)).tokens = .ok t := by
  rw [read, ofTokens, bind_eq_ok_iff, bind_eq_ok_iff]
  cases (Reading.of (withoutMark markup.toList)).stop with
  | none => simp
  | some stop => simp

end Element

end SvgPlot.Markup
