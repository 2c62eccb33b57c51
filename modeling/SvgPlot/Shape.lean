import SvgPlot.Canvas

/-!
# Shapes

The kinds of element that are drawn, with what each of them needs and yields, and the role that an element name plays:
a style, metadata, definitions, a shape, or nothing known.
-/

namespace SvgPlot

inductive Shape where
  | svg
  | group
  | line
  | circle
  | ellipse
  | rectangle
  | polyline
  | polygon
  | path
  | image
  | text
  | textSpan
deriving Repr, DecidableEq, Inhabited

namespace Shape

def all : List Shape :=
  [svg, group, line, circle, ellipse, rectangle, polyline, polygon, path, image, text, textSpan]

/-- The element name of a shape. -/
def name : Shape → String
  | svg => "svg"
  | group => "g"
  | line => "line"
  | circle => "circle"
  | ellipse => "ellipse"
  | rectangle => "rect"
  | polyline => "polyline"
  | polygon => "polygon"
  | path => "path"
  | image => "image"
  | text => "text"
  | textSpan => "tspan"

def ofName? (name : String) : Option Shape := all.find? fun shape => shape.name == name

theorem mem_all (shape : Shape) : shape ∈ all := by cases shape <;> decide

theorem ofName?_name (shape : Shape) : ofName? shape.name = some shape := by cases shape <;> decide

theorem name_of_ofName? {name : String} {shape : Shape} (h : ofName? name = some shape) : shape.name = name := by
  simpa using List.find?_some h

/-! ## What a shape needs and yields -/

/-- A numeric attribute; one that is absent counts as `0`. -/
structure Measure where
  key : String
  quantity : Quantity
deriving Repr, DecidableEq

/-- Where the text that goes with a shape comes from. -/
inductive Payload where
  | none
  /-- the first of these attributes that is there -/
  | firstOf (keys : List String)
  /-- the text in the element -/
  | content
deriving Repr, DecidableEq

/-- `required` are the attributes that must be there, `measures` the numeric ones in the order of the numbers. -/
structure Rule where
  required : List String
  measures : List Measure
  payload : Payload
deriving Repr, DecidableEq

def rule : Shape → Rule
  | svg | group => ⟨[], [], .none⟩
  | line => ⟨[], [⟨"x1", .x⟩, ⟨"y1", .y⟩, ⟨"x2", .x⟩, ⟨"y2", .y⟩], .none⟩
  | circle => ⟨["r"], [⟨"cx", .x⟩, ⟨"cy", .y⟩, ⟨"r", .length⟩], .none⟩
  | ellipse => ⟨["rx", "ry"], [⟨"cx", .x⟩, ⟨"cy", .y⟩, ⟨"rx", .width⟩, ⟨"ry", .height⟩], .none⟩
  | rectangle =>
    ⟨["width", "height"], [⟨"x", .x⟩, ⟨"y", .y⟩, ⟨"width", .width⟩, ⟨"height", .height⟩, ⟨"rx", .width⟩], .none⟩
  | polyline | polygon => ⟨["points"], [⟨"points", .points⟩], .none⟩
  | path => ⟨["d"], [], .firstOf ["d"]⟩
  | image =>
    ⟨["width", "height"], [⟨"x", .x⟩, ⟨"y", .y⟩, ⟨"width", .width⟩, ⟨"height", .height⟩],
      .firstOf ["href", "xlink:href"]⟩
  | text | textSpan => ⟨[], [⟨"x", .x⟩, ⟨"y", .y⟩], .content⟩

/-- The required attributes that are not there, in the order of the rule. -/
def Rule.missing (rule : Rule) (present : String → Bool) : List String :=
  rule.required.filter fun key => !present key

end Shape

/-- What an element of some name is for. -/
inductive Role where
  | style
  /-- text about the drawing, which is left out -/
  | metadata
  /-- material to refer to, of which only the styles count -/
  | definitions
  /-- a mark of its own -/
  | drawn (shape : Shape)
  | unknown
deriving Repr, DecidableEq

def Role.ofName (name : String) : Role :=
  if name = "style" then .style
  else if name ∈ ["title", "desc", "metadata"] then .metadata
  else if name ∈ ["defs", "symbol"] then .definitions
  else
    match Shape.ofName? name with
    | some shape => .drawn shape
    | none => .unknown

end SvgPlot
