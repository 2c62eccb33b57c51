import SvgPlot.Proofs.AttributeText
import SvgPlot.Proofs.Growth

/-!
# The tree of a sequence of tokens

When a sequence of tokens makes a tree, and which tree that is, said about the tokens alone.

* `OneTree` and `depthsFrom` are about opening and closing only: one element outside all others, nothing left open, and
  how deep each element lies.
* `bracketsOf` is the bracket sequence of the tokens, with the attributes of each element and the content that stands
  directly in it. `Element.brackets` is the same for a tree.
* `Growth.grow_isOk_iff` follows the stack of open elements along the tokens to see when a tree comes of them;
  `Growth.brackets_of_grow` follows what the stack holds to see which.
* A tree comes of tokens if and only if they make one, and it is the tree with their brackets.
-/

namespace SvgPlot.Markup

/-! ## What the tokens say -/

/-- The number of open elements after a token, if there are `level` before it. -/
def Token.levelAfter (level : Nat) : Token → Nat
  | .opening _ => level + 1
  | .closing _ => level - 1
  | _ => level

/-- The closing tags have the names of the elements they close. That much the reader sees to. -/
def Matched (tokens : List Token) : Prop := ∃ names, tokens.foldlM Token.nest [] = .ok names

/-- The number of open elements after some tokens. -/
def levelAfter (level : Nat) (tokens : List Token) : Nat := tokens.foldl Token.levelAfter level

/-- The depths of the elements that tokens begin, if `level` elements are open before them. -/
def depthsFrom : (level : Nat) → List Token → List Nat
  | _, [] => []
  | level, token :: rest => (if token.tag?.isSome then [level + 1] else []) ++ depthsFrom (token.levelAfter level) rest

theorem Token.levelAfter_of_isInner {token : Token} (h : token.IsInner) (level : Nat) :
    token.levelAfter level = level := by
  cases token <;> first | exact h.elim | rfl

theorem depthsFrom_of_tag {token : Token} {tag : Tag} (h : token.tag? = some tag) (level : Nat) (rest : List Token) :
    depthsFrom level (token :: rest) = (level + 1) :: depthsFrom (token.levelAfter level) rest := by
  rw [depthsFrom, h]
  rfl

theorem depthsFrom_of_isInner {token : Token} (h : token.IsInner) (level : Nat) (rest : List Token) :
    depthsFrom level (token :: rest) = depthsFrom level rest := by
  cases token <;> first | exact h.elim | rfl

/-- Tokens make one complete tree: nothing is left open, and one element stands outside all others. -/
structure OneTree (tokens : List Token) : Prop where
  closed : levelAfter 0 tokens = 0
  single : (depthsFrom 0 tokens).count 1 = 1

/-- The attributes of a tag can be read: its text can be cut into attributes, no key comes twice, and every value can be
expanded. -/
def Tag.IsReadable (tag : Tag) : Prop :=
  ∃ raws, splitAttributes tag.attributes = some raws ∧ (raws.map RawAttribute.key).Nodup ∧
    ∀ raw ∈ raws, ∃ value, expand raw.value = .ok value

/-- The content that stands directly in an element with these tokens after its tag, `level` elements being open inside
it. -/
def directContent : (level : Nat) → List Token → List Content
  | _, [] => []
  | 0, .closing _ :: _ => []
  | level, token :: rest =>
    (if level = 0 then token.content?.toList else []) ++ directContent (token.levelAfter level) rest

/-- Content with every run of texts made one text. -/
def joined : List Content → List Content
  | [] => []
  | .cdata raw :: rest => .cdata raw :: joined rest
  | .text raw :: rest =>
    match joined rest with
    | .text more :: others => .text (raw ++ more) :: others
    | others => .text raw :: others

/-- Where an element begins, with what it has of its own, or where it ends. -/
inductive Bracket where
  | start (name : String) (attributes : Dictionary) (content : List Content)
  | stop (name : String)
deriving DecidableEq

/-- The brackets of tokens in order, if the attributes of every tag can be read. An element that is closed at once has
both its brackets. -/
def bracketsOf : List Token → Option (List Bracket)
  | [] => some []
  | .opening tag :: rest => do
    let attributes ← tag.readAttributes.toOption
    let more ← bracketsOf rest
    return .start (String.ofList tag.name) attributes (joined (directContent 0 rest)) :: more
  | .empty tag :: rest => do
    let attributes ← tag.readAttributes.toOption
    let more ← bracketsOf rest
    return .start (String.ofList tag.name) attributes [] :: .stop (String.ofList tag.name) :: more
  | .closing name :: rest => (bracketsOf rest).map fun more => .stop (String.ofList name) :: more
  | _ :: rest => bracketsOf rest

namespace Element

mutual

/-- The brackets of a tree in document order. -/
def brackets : Element → List Bracket
  | ⟨name, attributes, content, children⟩ =>
    .start name attributes content :: (bracketsOfAll children ++ [.stop name])

def bracketsOfAll : List Element → List Bracket
  | [] => []
  | e :: rest => e.brackets ++ bracketsOfAll rest

end

theorem bracketsOfAll_append (es rest : List Element) :
    bracketsOfAll (es ++ rest) = bracketsOfAll es ++ bracketsOfAll rest := by
  induction es with
  | nil => simp only [List.nil_append, bracketsOfAll]
  | cons e es ih => simp only [List.cons_append, bracketsOfAll, ih, List.append_assoc]

/-- The brackets of elements cannot begin with the end of one. -/
theorem bracketsOfAll_append_stop {es : List Element} {name : String} {r r' : List Bracket}
    (h : bracketsOfAll es ++ r = .stop name :: r') : es = [] := by
  cases es with
  | nil => rfl
  | cons e es =>
    obtain ⟨name, attributes, content, children⟩ := e
    simp [bracketsOfAll, brackets] at h

mutual

/-- An element can be told from its brackets, whatever follows them. -/
theorem eq_of_brackets_append : ∀ {e e' : Element} {r r' : List Bracket},
    e.brackets ++ r = e'.brackets ++ r' → e = e' ∧ r = r'
  | ⟨name, attributes, content, children⟩, ⟨name', attributes', content', children'⟩, r, r', h => by
    simp only [brackets, List.cons_append, List.append_assoc, List.nil_append, List.cons.injEq,
      Bracket.start.injEq] at h
    obtain ⟨⟨rfl, rfl, rfl⟩, hinner⟩ := h
    obtain ⟨rfl, hrest⟩ := eq_of_bracketsOfAll_append hinner
    simp only [List.cons.injEq, true_and] at hrest
    exact ⟨rfl, hrest⟩

theorem eq_of_bracketsOfAll_append : ∀ {es es' : List Element} {name name' : String} {r r' : List Bracket},
    bracketsOfAll es ++ .stop name :: r = bracketsOfAll es' ++ .stop name' :: r' →
      es = es' ∧ Bracket.stop name :: r = .stop name' :: r'
  | [], es', name, name', r, r', h => by
    obtain rfl := bracketsOfAll_append_stop h.symm
    exact ⟨rfl, h⟩
  | e :: es, [], name, name', r, r', h => by
    cases bracketsOfAll_append_stop h
  | e :: es, e' :: es', name, name', r, r', h => by
    simp only [bracketsOfAll, List.append_assoc] at h
    obtain ⟨rfl, hrest⟩ := eq_of_brackets_append h
    obtain ⟨rfl, hstop⟩ := eq_of_bracketsOfAll_append hrest
    exact ⟨rfl, hstop⟩

end

/-- A tree is determined by its brackets. -/
theorem brackets_injective {e e' : Element} (h : e.brackets = e'.brackets) : e = e' := by
  have happend : e.brackets ++ [] = e'.brackets ++ [] := by rw [h]
  exact (eq_of_brackets_append happend).1

/-- Trees are compared by their brackets. -/
instance : DecidableEq Element := fun e e' =>
  decidable_of_iff (e.brackets = e'.brackets) ⟨brackets_injective, congrArg brackets⟩

instance (limit : Nat) (markup : String) (t : Element) : Decidable (read limit markup = .ok t) :=
  decidable_of_iff ((read limit markup).toOption = some t) toOption_eq_some_iff

end Element

/-- Every value can be expanded if all attributes can be decoded. -/
theorem forall_expand_iff (raws : List RawAttribute) :
    (∀ raw ∈ raws, ∃ value, expand raw.value = .ok value) ↔
      ∃ entries, raws.mapM RawAttribute.decode? = some entries := by
  induction raws with
  | nil => simp
  | cons raw raws ih =>
    cases hvalue : expand raw.value with
    | error fault => simp [RawAttribute.decode?, hvalue]
    | ok value =>
      cases hmore : raws.mapM RawAttribute.decode? with
      | none => simp [RawAttribute.decode?, hvalue, ih, List.mapM_cons, hmore]
      | some entries => simp [RawAttribute.decode?, hvalue, ih, List.mapM_cons, hmore]

theorem Tag.isReadable_iff {tag : Tag} : tag.IsReadable ↔ ∃ d, tag.readAttributes = .ok d := by
  simp only [readAttributes_eq_ok_iff, IsReadable, forall_expand_iff]
  constructor
  · intro h
    obtain ⟨raws, hsplit, hnodup, entries, hentries⟩ := h
    exact ⟨_, raws, entries, hsplit, hnodup, hentries, rfl⟩
  · intro h
    obtain ⟨d, raws, entries, hsplit, hnodup, hentries, -⟩ := h
    exact ⟨raws, hsplit, hnodup, entries, hentries⟩

/-! ## When a tree comes of tokens -/

/-- Tokens complete what has been begun: they close all that is open and leave one element outside all others, none of
them deeper than the limit, all with attributes that can be read. `level` elements are open before them, and `begun`
elements outside all others are complete or open. -/
def Completes (limit level begun : Nat) (tokens : List Token) : Prop :=
  levelAfter level tokens = 0 ∧ begun + (depthsFrom level tokens).count 1 = 1 ∧
    (∀ d ∈ depthsFrom level tokens, d ≤ limit) ∧ ∀ token ∈ tokens, ∀ tag ∈ token.tag?, tag.IsReadable

section

variable {limit level begun : Nat} {token : Token} {tag : Tag} {rest : List Token}

theorem completes_nil : Completes limit level begun [] ↔ level = 0 ∧ begun = 1 := by
  simp [Completes, levelAfter, depthsFrom]

theorem completes_closing {name : List Char} :
    Completes limit level begun (.closing name :: rest) ↔ Completes limit (level - 1) begun rest := by
  simp [Completes, levelAfter, depthsFrom, Token.levelAfter, Token.tag?]

theorem completes_of_isInner (h : token.IsInner) :
    Completes limit level begun (token :: rest) ↔ Completes limit level begun rest := by
  cases token <;> first | exact h.elim | simp [Completes, levelAfter, depthsFrom, Token.levelAfter, Token.tag?]

/-- A tag begins an element, which is one of those outside all others if nothing is open. -/
theorem completes_of_tag (h : token.tag? = some tag) :
    Completes limit level begun (token :: rest) ↔
      level < limit ∧ tag.IsReadable ∧
        Completes limit (token.levelAfter level) (begun + if level = 0 then 1 else 0) rest := by
  have hcount : begun + ((level + 1) :: depthsFrom (token.levelAfter level) rest).count 1 =
      begun + (if level = 0 then 1 else 0) + (depthsFrom (token.levelAfter level) rest).count 1 := by
    rw [List.count_cons]
    by_cases hlevel : level = 0
    · subst hlevel
      show begun + (_ + 1) = begun + 1 + _
      omega
    · simp [hlevel]
  have htags : (∀ other ∈ token :: rest, ∀ tag ∈ other.tag?, tag.IsReadable) ↔
      tag.IsReadable ∧ ∀ other ∈ rest, ∀ tag ∈ other.tag?, tag.IsReadable := by
    rw [List.forall_mem_cons, h]
    simp
  unfold Completes
  rw [depthsFrom_of_tag h, hcount, htags, List.forall_mem_cons]
  constructor
  · intro ⟨hlevel, hsingle, ⟨hroom, hrest⟩, hread, hothers⟩
    exact ⟨hroom, hread, hlevel, hsingle, hrest, hothers⟩
  · intro ⟨hroom, hread, hlevel, hsingle, hrest, hothers⟩
    exact ⟨hlevel, hsingle, ⟨hroom, hrest⟩, hread, hothers⟩

theorem completes_opening :
    Completes limit level begun (.opening tag :: rest) ↔
      level < limit ∧ tag.IsReadable ∧ Completes limit (level + 1) (begun + if level = 0 then 1 else 0) rest :=
  completes_of_tag rfl

theorem completes_empty :
    Completes limit level begun (.empty tag :: rest) ↔
      level < limit ∧ tag.IsReadable ∧ Completes limit level (begun + if level = 0 then 1 else 0) rest :=
  completes_of_tag rfl

end

/-- What the reader says about tokens after a token. -/
theorem foldlM_nest_cons {names final : List (List Char)} {token : Token} {rest : List Token} :
    (token :: rest).foldlM Token.nest names = .ok final ↔
      ∃ next, token.nest names = .ok next ∧ rest.foldlM Token.nest next = .ok final := by
  rw [List.foldlM_cons, bind_eq_ok_iff]

theorem nest_of_isInner {names : List (List Char)} {token : Token} (h : token.IsInner) :
    token.nest names = .ok names := by
  cases token <;> first | exact h.elim | rfl

theorem nest_closing_eq_ok_iff {names next : List (List Char)} {name : List Char} :
    (Token.closing name).nest names = .ok next ↔ names = name :: next := by
  cases names with
  | nil => simp [Token.nest]
  | cons expected outer =>
    simp only [Token.nest]
    split
    · rename_i heq
      simp [heq]
    · rename_i hne
      simp [Ne.symm hne]

namespace Growth

/-- The elements outside all others that have been begun. -/
def begun (stack : List OpenElement) (root : Option Element) : Nat :=
  (if root.isSome then 1 else 0) + if stack = [] then 0 else 1

theorem begun_cons (top : OpenElement) (stack : List OpenElement) (root : Option Element) :
    begun (top :: stack) root = begun stack root + if stack.length = 0 then 1 else 0 := by
  cases stack <;> simp [begun]

theorem begun_modifyHead (add : OpenElement → OpenElement) (stack : List OpenElement) (root : Option Element) :
    begun (stack.modifyHead add) root = begun stack root := by
  cases stack <;> rfl

/-- A tree comes of an attached element with the tokens that are left if it comes of a growing one with them. -/
theorem growAttached_isOk_iff {limit : Nat} {stack : List OpenElement} {rest : List Token} (root : Option Element)
    (e : Element)
    (ih : ∀ (stack' : List OpenElement) (root' : Option Element), stack'.length = stack.length →
      ((∃ t, (of stack' root').grow limit rest = .ok t) ↔
        Completes limit stack'.length (begun stack' root') rest)) :
    (∃ t, growAttached limit stack root e rest = .ok t) ↔
      Completes limit stack.length (begun stack root + if stack.length = 0 then 1 else 0) rest := by
  cases stack with
  | cons top below => exact ih (top.addChild e :: below) root rfl
  | nil =>
    cases root with
    | none => exact ih [] (some e) rfl
    | some e' =>
      -- a second element outside all others
      simp only [growAttached_some, reduceCtorEq, exists_false, false_iff]
      intro h
      have := h.2.1
      simp only [begun, Option.isSome_some, if_true, List.length_nil] at this
      omega

/-- A tree comes of a growing one if the tokens that are left complete it. -/
theorem grow_isOk_iff (limit : Nat) (tokens : List Token) :
    ∀ (stack : List OpenElement) (root : Option Element) (names final : List (List Char)),
      names.length = stack.length → tokens.foldlM Token.nest names = .ok final →
      ((∃ t, (of stack root).grow limit tokens = .ok t) ↔
        Completes limit stack.length (begun stack root) tokens) := by
  induction tokens with
  | nil =>
    intro stack root names final _ _
    simp only [grow_nil_eq_ok_iff, completes_nil, begun]
    cases stack <;> cases root <;> simp
  | cons token rest ih =>
    intro stack root names final hnames hmatched
    obtain ⟨next, hnest, hrest⟩ := foldlM_nest_cons.1 hmatched
    rcases token.cases_tag with ⟨tag, rfl⟩ | ⟨tag, rfl⟩ | ⟨name, rfl⟩ | hinner
    · -- an element is opened
      cases hnest
      have hinner := fun attributes => ih (.begun tag attributes :: stack) root (tag.name :: names) final
        (by simp only [List.length_cons, hnames]) hrest
      simp only [begun_cons, List.length_cons] at hinner
      rw [completes_opening, Tag.isReadable_iff]
      simp only [grow_opening_eq_ok_iff]
      constructor
      · intro h
        obtain ⟨t, hlt, _, attributes, hread, hgrow⟩ := h
        exact ⟨hlt, ⟨attributes, hread⟩, (hinner attributes).1 ⟨t, hgrow⟩⟩
      · intro h
        obtain ⟨hlt, ⟨attributes, hread⟩, hcompletes⟩ := h
        obtain ⟨t, hgrow⟩ := (hinner attributes).2 hcompletes
        refine ⟨t, hlt, fun hstack => ?_, attributes, hread, hgrow⟩
        -- a root that is complete would make this the second element outside all others
        have := hcompletes.2.1
        cases root with
        | none => rfl
        | some e =>
          simp only [begun, hstack, Option.isSome_some, if_true, List.length_nil] at this
          omega
    · -- an element is opened and closed
      cases hnest
      have hattached := fun e => growAttached_isOk_iff root e
        fun stack' root' hlength => ih stack' root' names final (hnames.trans hlength.symm) hrest
      rw [completes_empty, Tag.isReadable_iff]
      simp only [grow_empty_eq_ok_iff]
      constructor
      · intro h
        obtain ⟨t, hlt, attributes, hread, hgrow⟩ := h
        exact ⟨hlt, ⟨attributes, hread⟩, (hattached _).1 ⟨t, hgrow⟩⟩
      · intro h
        obtain ⟨hlt, ⟨attributes, hread⟩, hcompletes⟩ := h
        obtain ⟨t, hgrow⟩ := (hattached _).2 hcompletes
        exact ⟨t, hlt, attributes, hread, hgrow⟩
    · -- the innermost element is closed
      obtain rfl := nest_closing_eq_ok_iff.1 hnest
      cases stack with
      | nil => cases hnames
      | cons top below =>
        have hlength : next.length = below.length := Nat.succ.inj hnames
        have hattached := growAttached_isOk_iff root top.close
          fun stack' root' hlength' => ih stack' root' next final (hlength.trans hlength'.symm) hrest
        rw [completes_closing, begun_cons]
        simp only [grow_closing_cons]
        exact hattached
    · -- something is added to the innermost element
      rw [nest_of_isInner hinner] at hnest
      cases hnest
      simp only [completes_of_isInner hinner, grow_of_isInner hinner]
      have hsame := ih (stack.modifyHead (·.addContents token.content?.toList)) root names final
        (hnames.trans List.length_modifyHead.symm) hrest
      rw [begun_modifyHead, List.length_modifyHead] at hsame
      exact hsame

end Growth

/-! ## Which tree comes of tokens -/

theorem joined_text_text (a b : String) (rest : List Content) :
    joined (.text a :: .text b :: rest) = joined (.text (a ++ b) :: rest) := by
  simp only [joined]
  cases joined rest with
  | nil => rfl
  | cons c others => cases c <;> simp [String.append_assoc]

/-- Content that is added piece by piece comes to the pieces with every run of texts made one. -/
theorem OpenElement.content_addContents (pieces : List Content) :
    ∀ e : OpenElement, (e.addContents pieces).content.reverse =
      match e.content with
      | .text raw :: before => before.reverse ++ joined (.text raw :: pieces)
      | content => content.reverse ++ joined pieces := by
  induction pieces with
  | nil =>
    intro e
    rw [addContents_nil]
    split
    · rename_i raw before heq
      simp [heq, joined]
    · simp [joined]
  | cons piece rest ih =>
    intro e
    have hcons : e.addContents (piece :: rest) = (e.addContent piece).addContents rest := rfl
    rw [hcons, ih]
    cases piece with
    | text raw =>
      rcases hcontent : e.content with _ | ⟨before | before, others⟩ <;>
        simp only [addContent, addText, Content.pushText, hcontent, joined_text_text]
    | cdata raw =>
      rcases hcontent : e.content with _ | ⟨before | before, others⟩ <;>
        simp [addContent, addCData, hcontent, joined]

theorem OpenElement.content_begun (tag : Tag) (attributes : Dictionary) (pieces : List Content) :
    ((begun tag attributes).addContents pieces).content.reverse = joined pieces := by
  rw [content_addContents]
  rfl

/-- The brackets of open elements, innermost first, as far as they have come, each with all the content that it will
have once the tokens are taken in that are left. `level` elements are open inside them. -/
def openBrackets (tokens : List Token) : (level : Nat) → List OpenElement → List Bracket
  | _, [] => []
  | level, e :: below =>
    openBrackets tokens (level + 1) below ++
      .start e.name e.attributes (e.addContents (directContent level tokens)).content.reverse ::
        Element.bracketsOfAll e.children.reverse

/-- The brackets of open elements depend on the tokens through the direct content of each. -/
theorem openBrackets_congr {tokens tokens' : List Token} (stack : List OpenElement) :
    ∀ level level', (∀ i, directContent (level + i) tokens = directContent (level' + i) tokens') →
      openBrackets tokens level stack = openBrackets tokens' level' stack := by
  induction stack with
  | nil => exact fun _ _ _ => rfl
  | cons e below ih =>
    intro level level' h
    have hhere : directContent level tokens = directContent level' tokens' := h 0
    have hbelow := ih (level + 1) (level' + 1) fun i => by
      simpa only [Nat.add_assoc, Nat.add_comm 1 i] using h (i + 1)
    rw [openBrackets, openBrackets, hhere, hbelow]

theorem directContent_opening (level : Nat) (tag : Tag) (rest : List Token) :
    directContent level (.opening tag :: rest) = directContent (level + 1) rest := by
  simp [directContent, Token.levelAfter, Token.content?]

theorem directContent_empty (level : Nat) (tag : Tag) (rest : List Token) :
    directContent level (.empty tag :: rest) = directContent level rest := by
  simp [directContent, Token.levelAfter, Token.content?]

theorem directContent_closing (level : Nat) (name : List Char) (rest : List Token) :
    directContent (level + 1) (.closing name :: rest) = directContent level rest := by
  simp [directContent, Token.levelAfter]

theorem directContent_of_isInner {token : Token} (h : token.IsInner) (level : Nat) (rest : List Token) :
    directContent level (token :: rest) =
      (if level = 0 then token.content?.toList else []) ++ directContent level rest := by
  cases token <;> first | exact h.elim | simp [directContent, Token.levelAfter]

/-- The brackets of an element that is closed now are those of its start, its children and its end. -/
theorem openBrackets_closing (top : OpenElement) (below : List OpenElement) (name : List Char) (rest : List Token) :
    openBrackets (.closing name :: rest) 0 (top :: below) ++ [.stop top.name] =
      openBrackets rest 0 below ++ top.close.brackets := by
  have hbelow : openBrackets (.closing name :: rest) 1 below = openBrackets rest 0 below :=
    openBrackets_congr below 1 0 fun i => by rw [Nat.add_comm 1 i, Nat.zero_add, directContent_closing]
  simp [openBrackets, hbelow, directContent, OpenElement.close, Element.brackets]

/-- An attached element puts its brackets after those of all that is open. -/
theorem openBrackets_addChild (top : OpenElement) (below : List OpenElement) (e : Element) (tokens : List Token) :
    openBrackets tokens 0 (top.addChild e :: below) = openBrackets tokens 0 (top :: below) ++ e.brackets := by
  simp only [openBrackets, OpenElement.addContents_addChild]
  simp [OpenElement.addChild, Element.bracketsOfAll_append, Element.bracketsOfAll]

/-- An opened element puts its start after the brackets of all that is open. -/
theorem openBrackets_opening (tag : Tag) (attributes : Dictionary) (stack : List OpenElement) (rest : List Token) :
    openBrackets rest 0 (.begun tag attributes :: stack) =
      openBrackets (.opening tag :: rest) 0 stack ++
        [.start (String.ofList tag.name) attributes (joined (directContent 0 rest))] := by
  have hbelow : openBrackets (.opening tag :: rest) 0 stack = openBrackets rest 1 stack :=
    openBrackets_congr stack 0 1 fun i => by rw [directContent_opening, Nat.zero_add, Nat.add_comm 1 i]
  rw [hbelow]
  simp only [openBrackets, OpenElement.content_begun]
  rfl

theorem openBrackets_of_isInner {token : Token} (h : token.IsInner) (stack : List OpenElement) (rest : List Token) :
    openBrackets rest 0 (stack.modifyHead (·.addContents token.content?.toList)) =
      openBrackets (token :: rest) 0 stack := by
  cases stack with
  | nil => rfl
  | cons top below =>
    have hbelow : openBrackets (token :: rest) 1 below = openBrackets rest 1 below :=
      openBrackets_congr below 1 1 fun i => by
        rw [directContent_of_isInner h, if_neg (by omega), List.nil_append]
    simp only [List.modifyHead_cons, openBrackets, Nat.zero_add, hbelow, directContent_of_isInner h, if_true,
      OpenElement.addContents_append, OpenElement.name_addContents, OpenElement.attributes_addContents,
      OpenElement.children_addContents]

namespace Growth

/-- The brackets of all that has been put together so far. -/
def bracketsSoFar (stack : List OpenElement) (root : Option Element) (tokens : List Token) : List Bracket :=
  root.elim [] Element.brackets ++ openBrackets tokens 0 stack

section

variable {limit : Nat}

/-- An attached element puts its brackets after those so far. -/
theorem brackets_of_growAttached {stack : List OpenElement} {root : Option Element} {e t : Element}
    {rest : List Token} {names : List (List Char)}
    (ih : ∀ (stack' : List OpenElement) (root' : Option Element) (t : Element),
      names.map String.ofList = stack'.map OpenElement.name → (of stack' root').grow limit rest = .ok t →
      ∃ more, bracketsOf rest = some more ∧ t.brackets = bracketsSoFar stack' root' rest ++ more)
    (hnames : names.map String.ofList = stack.map OpenElement.name)
    (hgrow : growAttached limit stack root e rest = .ok t) :
    ∃ more, bracketsOf rest = some more ∧ t.brackets = bracketsSoFar stack root rest ++ e.brackets ++ more := by
  cases stack with
  | cons top below =>
    obtain ⟨more, hmore, ht⟩ := ih (top.addChild e :: below) root t hnames hgrow
    refine ⟨more, hmore, ?_⟩
    rw [ht, bracketsSoFar, openBrackets_addChild]
    simp only [bracketsSoFar, List.append_assoc]
  | nil =>
    cases root with
    | none => simpa [bracketsSoFar, openBrackets] using ih [] (some e) t hnames hgrow
    | some e' => cases hgrow

/-- The tree that comes of a growing one has the brackets so far, and then those of the tokens that are left. -/
theorem brackets_of_grow (tokens : List Token) :
    ∀ (stack : List OpenElement) (root : Option Element) (names final : List (List Char)) (t : Element),
      names.map String.ofList = stack.map OpenElement.name → tokens.foldlM Token.nest names = .ok final →
      (of stack root).grow limit tokens = .ok t →
      ∃ more, bracketsOf tokens = some more ∧ t.brackets = bracketsSoFar stack root tokens ++ more := by
  induction tokens with
  | nil =>
    intro stack root names final t _ _ hgrow
    obtain ⟨rfl, rfl⟩ := grow_nil_eq_ok_iff.1 hgrow
    exact ⟨[], rfl, by simp [bracketsSoFar, openBrackets]⟩
  | cons token rest ih =>
    intro stack root names final t hnames hmatched hgrow
    obtain ⟨next, hnest, hrest⟩ := foldlM_nest_cons.1 hmatched
    rcases token.cases_tag with ⟨tag, rfl⟩ | ⟨tag, rfl⟩ | ⟨name, rfl⟩ | hinner
    · cases hnest
      obtain ⟨-, -, attributes, hread, hgrow⟩ := grow_opening_eq_ok_iff.1 hgrow
      obtain ⟨more, hmore, ht⟩ := ih _ _ (tag.name :: names) _ _ (by simp [hnames, OpenElement.begun]) hrest hgrow
      refine ⟨_, by rw [bracketsOf, hread, hmore]; rfl, ?_⟩
      rw [ht, bracketsSoFar, openBrackets_opening]
      simp [bracketsSoFar]
    · cases hnest
      obtain ⟨-, attributes, hread, hgrow⟩ := grow_empty_eq_ok_iff.1 hgrow
      obtain ⟨more, hmore, ht⟩ :=
        brackets_of_growAttached (fun _ _ t hnames => ih _ _ names final t hnames hrest) hnames hgrow
      refine ⟨_, by rw [bracketsOf, hread, hmore]; rfl, ?_⟩
      have hsame : openBrackets (.empty tag :: rest) 0 stack = openBrackets rest 0 stack :=
        openBrackets_congr stack 0 0 fun i => directContent_empty ..
      rw [ht, bracketsSoFar, bracketsSoFar, hsame]
      simp [OpenElement.begun, OpenElement.close, Element.brackets, Element.bracketsOfAll]
    · obtain rfl := nest_closing_eq_ok_iff.1 hnest
      cases stack with
      | nil => cases hnames
      | cons top below =>
        obtain ⟨hname, hbelow⟩ := List.cons.inj hnames
        obtain ⟨more, hmore, ht⟩ := brackets_of_growAttached
          (fun _ _ t hnames => ih _ _ next final t hnames hrest) hbelow (grow_closing_cons.1 hgrow)
        refine ⟨_, by rw [bracketsOf, hmore]; rfl, ?_⟩
        have hclosed := openBrackets_closing top below name rest
        rw [ht, bracketsSoFar, bracketsSoFar, hname, List.append_assoc, List.append_assoc, List.append_assoc,
          ← List.append_assoc _ _ more, ← hclosed, List.append_assoc]
        rfl
    · rw [nest_of_isInner hinner] at hnest
      cases hnest
      rw [grow_of_isInner hinner] at hgrow
      have hsame : (stack.modifyHead (·.addContents token.content?.toList)).map OpenElement.name =
          stack.map OpenElement.name := by
        cases stack <;> simp
      obtain ⟨more, hmore, ht⟩ := ih _ root names final t (hnames.trans hsame.symm) hrest hgrow
      refine ⟨more, ?_, ?_⟩
      · cases token <;> first | exact hinner.elim | exact hmore
      · rw [ht, bracketsSoFar, bracketsSoFar, openBrackets_of_isInner hinner]

end

/-! ## Tokens outside all elements -/

section

variable {limit : Nat}

/-- A step changes the number of open elements as its token says. -/
theorem length_stack_of_step {g next : Growth} {token : Token} (h : g.step limit token = .ok next) :
    next.stack.length = token.levelAfter g.stack.length := by
  rw [g.eq_of] at h
  generalize g.stack = stack, g.root = root at h ⊢
  have hattach : ∀ {stack : List OpenElement} {e : Element}, (of stack root).attach e = .ok next →
      next.stack.length = stack.length := by
    intro stack e h
    rcases attach_eq_ok_iff.1 h with ⟨top, below, rfl, rfl⟩ | ⟨rfl, -, rfl⟩ <;> rfl
  rcases token.cases_tag with ⟨tag, rfl⟩ | ⟨tag, rfl⟩ | ⟨name, rfl⟩ | hinner
  · obtain ⟨-, -, attributes, -, rfl⟩ := step_opening_eq_ok_iff.1 h
    rfl
  · obtain ⟨-, attributes, -, hnext⟩ := step_empty_eq_ok_iff.1 h
    exact hattach hnext
  · obtain ⟨top, below, rfl, hnext⟩ := step_closing_eq_ok_iff.1 h
    exact hattach hnext
  · rw [step_of_isInner hinner] at h
    cases h
    rw [Token.levelAfter_of_isInner hinner]
    exact List.length_modifyHead

theorem length_stack_of_run {tokens : List Token} :
    ∀ {g next : Growth}, g.run limit tokens = .ok next → next.stack.length = levelAfter g.stack.length tokens := by
  induction tokens with
  | nil =>
    intro g next h
    cases h
    rfl
  | cons token rest ih =>
    intro g next h
    rw [run, List.foldlM_cons, bind_eq_ok_iff] at h
    obtain ⟨middle, hstep, hrun⟩ := h
    rw [ih hrun, length_stack_of_step hstep]
    rfl

/-- A token that is no tag does nothing where no element is open. -/
theorem grow_skip {before after : List Token} {token : Token} (hlevel : levelAfter 0 before = 0)
    (hinner : token.IsInner) : start.grow limit (before ++ token :: after) = start.grow limit (before ++ after) := by
  have happend : ∀ others, start.grow limit (before ++ others) =
      start.run limit before >>= fun g => g.grow limit others := by
    intro others
    simp only [grow, run, List.foldlM_append]
    cases List.foldlM (step limit) start before <;> rfl
  rw [happend, happend]
  cases hrun : start.run limit before with
  | error error => rfl
  | ok g =>
    have hstack : g.stack = [] := List.eq_nil_of_length_eq_zero ((length_stack_of_run hrun).trans hlevel)
    rw [g.eq_of, hstack]
    exact grow_of_isInner hinner

end

end Growth

/-! ## Trees of tokens -/

namespace Element

/-- A tree comes of tokens if they make one tree that is not too deep and whose tags can all be read. It is the one tree
with the brackets of the tokens, and what stands outside all elements plays no part. -/
theorem ofTokens_eq_ok_iff (limit : Nat) (tokens : List Token) (hmatched : Matched tokens) :
    ((∃ t, ofTokens limit tokens = .ok t) ↔
        OneTree tokens ∧ (∀ d ∈ depthsFrom 0 tokens, d ≤ limit) ∧
          ∀ token ∈ tokens, ∀ tag ∈ token.tag?, tag.IsReadable) ∧
      (∀ t, ofTokens limit tokens = .ok t →
        bracketsOf tokens = some t.brackets ∧ ∀ t', bracketsOf tokens = some t'.brackets → t' = t) ∧
      ∀ before token after, tokens = before ++ token :: after → levelAfter 0 before = 0 → token.IsInner →
        ofTokens limit tokens = ofTokens limit (before ++ after) := by
  obtain ⟨final, hfinal⟩ := hmatched
  refine ⟨?_, fun t ht => ?_, ?_⟩
  · have hgrow := Growth.grow_isOk_iff limit tokens [] none [] final rfl hfinal
    simp only [ofTokens_eq_grow, hgrow, Completes, Growth.begun]
    constructor
    · intro h
      obtain ⟨hclosed, hsingle, hdepth, htags⟩ := h
      exact ⟨⟨hclosed, by simpa using hsingle⟩, hdepth, htags⟩
    · intro h
      obtain ⟨⟨hclosed, hsingle⟩, hdepth, htags⟩ := h
      exact ⟨hclosed, by simpa using hsingle, hdepth, htags⟩
  · obtain ⟨more, hmore, hbrackets⟩ := Growth.brackets_of_grow tokens [] none [] final t rfl hfinal ht
    have hsame : bracketsOf tokens = some t.brackets := by rw [hmore, hbrackets]; rfl
    refine ⟨hsame, fun t' ht' => brackets_injective ?_⟩
    rw [hsame] at ht'
    exact (Option.some.inj ht').symm
  · intro before token after htokens hlevel hinner
    subst htokens
    exact Growth.grow_skip hlevel hinner

/-- Text goes on behind a child and a comment and breaks off at a CDATA section; what stands outside the root is
dropped. -/
theorem ofTokens_mixed :
    let svg : Tag := ⟨"svg".toList, " width='1'".toList⟩
    let tokens : List Token := [.instruction, .text ['x'], .opening svg, .text ['a'], .reference ['g', 't'],
      .empty ⟨['g'], []⟩, .comment, .text ['b'], .cdata ['c'], .text ['d'], .closing "svg".toList, .cdata ['y']]
    Matched tokens ∧ ofTokens 2 tokens =
      .ok ⟨"svg", Dictionary.ofList [("width", "1")], [.text "a&gt;b", .cdata "c", .text "d"],
        [⟨"g", Dictionary.empty, [], []⟩]⟩ := by
  intro svg tokens
  have hmatched : Matched tokens := ⟨[], rfl⟩
  have hcut : splitAttributes " width='1'".toList = some [⟨"width".toList, ['1']⟩] := by cbv
  have hsvg : svg.readAttributes = .ok (Dictionary.ofList [("width", "1")]) :=
    Tag.readAttributes_eq_ok_iff.2 ⟨_, _, hcut, by decide, rfl, rfl⟩
  have hg : (⟨['g'], []⟩ : Tag).readAttributes = .ok Dictionary.empty :=
    Tag.readAttributes_eq_ok_iff.2 ⟨[], [], splitAttributes_of_nil rfl, by decide, rfl, rfl⟩
  obtain ⟨hsome, hthis, -⟩ := ofTokens_eq_ok_iff 2 tokens hmatched
  refine ⟨hmatched, ?_⟩
  obtain ⟨t, ht⟩ := hsome.2 ⟨⟨by decide, by decide⟩, by decide, by
    simp [tokens, Token.tag?, Tag.isReadable_iff, hsvg, hg]⟩
  rw [ht, ← (hthis t ht).2 ⟨"svg", Dictionary.ofList [("width", "1")], [.text "a&gt;b", .cdata "c", .text "d"],
    [⟨"g", Dictionary.empty, [], []⟩]⟩]
  simp only [tokens, bracketsOf, hsvg, hg]
  decide

end Element

end SvgPlot.Markup
