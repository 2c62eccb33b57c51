import SvgPlot.Compile.Note
import SvgPlot.Mark

/-!
# Opening an element

What one element comes to, its children left aside: a mark, if it is drawn and nothing is wrong with it, and notes. A
mark is made whole or not at all: the first thing wrong with the element is the only warning about it.
-/

namespace SvgPlot

open Markup (Element PlainText)

/-- The notes of a style element: the references that were kept, then the block. -/
def styleNotes (e : Element) : List Note :=
  let text := PlainText.of e.content
  text.kept.map Note.kept ++ [.style text.toString]

def styleName : String := "style"

/-- The notes of the styles among pending elements and below them, in document order. A style is not searched for
others. -/
def pendingStyleNotes : (pending : List Element) → List Note
  | [] => []
  | e :: pending =>
    if e.name = styleName then styleNotes e ++ pendingStyleNotes pending
    else pendingStyleNotes (e.children ++ pending)
termination_by pending => Element.sizes pending
decreasing_by
  · have := Element.size_pos e
    simp only [Element.sizes]
    omega
  · have := Element.size_eq e
    simp only [Element.sizes_append, Element.sizes]
    omega

/-- The numbers that the measures of a rule give, up to the first that cannot be read. -/
def readMeasures (canvas : Canvas) (e : Element) : List Shape.Measure → Except Warning (List Float)
  | [] => .ok []
  | m :: rest =>
    let raw := (e.attributes.get? m.key).getD "0"
    match canvas.measure m.quantity raw with
    | .error error => .error (.invalidValue raw m.key e.name (.length error))
    | .ok numbers => (readMeasures canvas e rest).map fun more => numbers ++ more

/-- The text that goes with a mark, and the references kept in it. Blank runs in content become single spaces. -/
def readPayload (e : Element) : Shape.Payload → Option String × List Markup.KeptReference
  | .none => (none, [])
  | .firstOf keys => (keys.findSome? e.attributes.get?, [])
  | .content =>
    let text := PlainText.of e.content
    let words := Text.collapse text.toString
    (if words.isEmpty then none else some words, text.kept)

/-- The outcome of opening an element. -/
structure Opening where
  notes : List Note
  mark : Option Mark

/-- The mark of an element that is drawn as `shape`, its children left out, or the first thing wrong with it. -/
def Shape.markOf (canvas : Canvas) (shape : Shape) (e : Element) : Except Warning Mark :=
  match shape.rule.missing e.attributes.contains with
  | [] =>
    (readMeasures canvas e shape.rule.measures).map fun numbers =>
      ⟨shape, numbers, (readPayload e shape.rule.payload).1, []⟩
  | keys => .error (.missingAttributes keys e.name)

/-- Opens an element that is drawn as `shape`. -/
def openShape (canvas : Canvas) (shape : Shape) (e : Element) : Opening :=
  match shape.markOf canvas e with
  | .error warning => ⟨[.warning warning], none⟩
  | .ok mark => ⟨(readPayload e shape.rule.payload).2.map Note.kept, some mark⟩

def openElement (canvas : Canvas) (e : Element) : Opening :=
  match Role.ofName e.name with
  | .style => ⟨styleNotes e, none⟩
  | .metadata => ⟨[.skipped e.name], none⟩
  | .definitions => ⟨pendingStyleNotes e.children, none⟩
  | .unknown => ⟨[.warning (.unknownElement e.name)], none⟩
  | .drawn shape => openShape canvas shape e

end SvgPlot
