import SvgPlot.Markup.Attribute

/-!
# Trees from tokens

Tokens are folded into a tree by a stack of open elements. A text is read to its first fault; the tokens before the
fault are folded first, so that what is wrong earlier in the text counts. `Element.read` does all of it.
-/

namespace SvgPlot.Markup

/-- Why a text is no element tree. -/
inductive Malformed where
  /-- a fault of a token, with the byte position up to which the text was read -/
  | token (fault : Fault) (position : Nat)
  | attributes (element : String) (fault : TagFault)
  | multipleRoots
  | noRoot
  | unclosed (element : String)
  /-- a closing tag with no element open -/
  | notOpen
deriving Repr, DecidableEq

def Malformed.message : Malformed → String
  | .token fault position => s!"{fault.message} at position {position}"
  | .attributes element (.malformed fault) => s!"malformed attribute on <{element}>: {fault.message}"
  | .attributes element (.badValue key fault) => s!"attribute {key} on <{element}>: {fault.message}"
  | .multipleRoots => "multiple root elements"
  | .noRoot => "no root element"
  | .unclosed element => s!"unclosed element <{element}>"
  | .notOpen => "end tag without matching start"

inductive TreeError where
  | malformed (cause : Malformed)
  /-- An element lies deeper than this limit allows, the root being at depth 1. -/
  | tooDeep (limit : Nat)
deriving Repr, DecidableEq

/-- An element whose closing tag is still to come, with content and children newest first. -/
structure OpenElement where
  name : String
  attributes : Dictionary
  content : List Content
  children : List Element

namespace OpenElement

def close (e : OpenElement) : Element := ⟨e.name, e.attributes, e.content.reverse, e.children.reverse⟩

def addText (e : OpenElement) (raw : String) : OpenElement :=
  { e with content := Content.pushText raw e.content }

def addCData (e : OpenElement) (raw : String) : OpenElement := { e with content := .cdata raw :: e.content }

def addChild (e : OpenElement) (child : Element) : OpenElement := { e with children := child :: e.children }

/-- The element that a tag opens. -/
def ofTag (tag : Tag) : Except TreeError OpenElement :=
  let name := String.ofList tag.name
  match tag.readAttributes with
  | .ok attributes => .ok ⟨name, attributes, [], []⟩
  | .error fault => .error (.malformed (.attributes name fault))

end OpenElement

/-- A tree that is being put together: the open elements, innermost first, with their number, and the root once it is
complete. -/
structure Growth where
  stack : List OpenElement
  root : Option Element
  depth : Nat
  depth_eq : depth = stack.length

namespace Growth

def start : Growth := ⟨[], none, 0, rfl⟩

/-- An element is opened in the innermost one. -/
def push (g : Growth) (e : OpenElement) : Growth :=
  ⟨e :: g.stack, g.root, g.depth + 1, by rw [g.depth_eq, List.length_cons]⟩

/-- Something is added to the innermost open element; outside the root it is dropped. -/
def addTo (g : Growth) (add : OpenElement → OpenElement) : Growth :=
  match h : g.stack with
  | [] => g
  | top :: below => ⟨add top :: below, g.root, g.depth, by rw [g.depth_eq, h, List.length_cons, List.length_cons]⟩

/-- A complete element becomes a child of the innermost open one, or the root. -/
def attach (g : Growth) (e : Element) : Except TreeError Growth :=
  match g.stack, g.root with
  | _ :: _, _ => .ok (g.addTo (·.addChild e))
  | [], none => .ok ⟨[], some e, 0, rfl⟩
  | [], some _ => .error (.malformed .multipleRoots)

/-- One token is taken in. -/
def step (limit : Nat) (g : Growth) : Token → Except TreeError Growth
  | .opening tag => do
    if limit ≤ g.depth then .error (.tooDeep limit)
    else if g.stack.isEmpty && g.root.isSome then .error (.malformed .multipleRoots)
    else
      let e ← OpenElement.ofTag tag
      return g.push e
  | .empty tag => do
    if limit ≤ g.depth then .error (.tooDeep limit)
    else
      let e ← OpenElement.ofTag tag
      g.attach e.close
  | .closing _ =>
    match h : g.stack with
    | [] => .error (.malformed .notOpen)
    | top :: below =>
      attach ⟨below, g.root, g.depth - 1, by rw [g.depth_eq, h, List.length_cons, Nat.add_sub_cancel]⟩ top.close
  | .text raw => .ok (g.addTo (·.addText (String.ofList raw)))
  | .reference body => .ok (g.addTo (·.addText (String.ofList ('&' :: body ++ [';']))))
  | .cdata raw => .ok (g.addTo (·.addCData (String.ofList raw)))
  | .comment | .instruction | .doctype => .ok g

/-- The tree, if nothing is open any more. -/
def finish (g : Growth) : Except TreeError Element :=
  match g.stack, g.root with
  | top :: _, _ => .error (.malformed (.unclosed top.name))
  | [], none => .error (.malformed .noRoot)
  | [], some e => .ok e

end Growth

/-- The tokens after one another taken in. -/
def Growth.run (limit : Nat) (g : Growth) (tokens : List Token) : Except TreeError Growth :=
  tokens.foldlM (Growth.step limit) g

/-- The tree that a sequence of tokens describes. -/
def Element.ofTokens (limit : Nat) (tokens : List Token) : Except TreeError Element := do
  (← Growth.start.run limit tokens).finish

/-- The tree of a text, with no element deeper than `limit`. -/
def Element.read (limit : Nat) (markup : String) : Except TreeError Element := do
  let text := withoutMark markup.toList
  let reading := Reading.of text
  let g ← Growth.start.run limit reading.tokens
  match reading.stop with
  | some stop => .error (.malformed (.token stop.fault (Text.positionOf text stop.unread)))
  | none => g.finish

end SvgPlot.Markup
