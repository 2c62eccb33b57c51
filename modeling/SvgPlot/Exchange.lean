import SvgPlot.Json.Reader
import SvgPlot.Json.Text
import SvgPlot.Plot

/-!
# Plots as JSON

Plots and marks written as JSON objects and read back. Reading passes over fields it does not know, takes an object also
as the list of all its fields in order, and goes no deeper than 127 levels into what it reads.
-/

namespace SvgPlot

open Json (Value)

/-! ## Writing -/

/-- The member for the data of a mark, if there is any. -/
def dataMember (data : Option String) : List (String × Value) :=
  match data with
  | none => []
  | some text => [("data", .ofString text)]

mutual

def Mark.toJson : Mark → Value
  | ⟨shape, numbers, data, children⟩ =>
    .ofMembers
      ([("tag", .ofString shape.name), ("args", .array (numbers.map .ofFloat))] ++ dataMember data ++
        [("children", .array (Mark.listToJson children))])

def Mark.listToJson : List Mark → List Value
  | [] => []
  | m :: rest => m.toJson :: Mark.listToJson rest

end

def Canvas.toJson (canvas : Canvas) : Value :=
  .ofMembers [("width", .ofFloat canvas.width), ("height", .ofFloat canvas.height)]

def Plot.toJson (plot : Plot) : Value :=
  .ofMembers
    [("canvas", plot.canvas.toJson), ("root", plot.root.toJson),
      ("warnings", .array (plot.warnings.map .ofString)), ("styles", .array (plot.styles.map .ofString))]

/-- A plot as JSON text. -/
def Plot.json (style : Json.Style) (plot : Plot) : String := plot.toJson.write style

/-! ## Reading -/

namespace Json

/-- The value of a field of an object, if it has it. A field that comes twice is a fault. -/
def member? (members : List (Str × Value)) (name : String) : Option (Option Value) :=
  match members.filter fun entry => entry.1 == some name with
  | [] => some none
  | [(_, value)] => some (some value)
  | _ => none

/-- The values of named fields, from an object, or from the list of all fields in this order. -/
def fields? (names : List String) : Value → Option (List (Option Value))
  | .array items => if items.length = names.length then some (items.map some) else none
  | .object members =>
    if members.any fun entry => entry.1.isNone then none else names.mapM (member? members)
  | _ => none

def Value.text? : Value → Option String
  | .string s => s
  | _ => none

def Value.float? : Value → Option Float
  | .number n => toFloat? n
  | _ => none

def Value.items? : Value → Option (List Value)
  | .array items => some items
  | _ => none

/-- The text of a field that may be absent or null. -/
def optionalText? : Option Value → Option (Option String)
  | none | some .null => some none
  | some value => value.text?.map some

/-- A shape: its name, or an object whose only key is the name, with null as the value. -/
def shape? : Value → Option Shape
  | .string (some name) => Shape.ofName? name
  | .object [(some name, .null)] => Shape.ofName? name
  | _ => none

/-- A list of what `read?` reads, in a value that may hold `room` levels. -/
def list? (read? : Value → Option α) (value : Value) : Option (List α) := do
  (← value.items?).mapM read?

end Json

open Json

/-- A mark in a value that may have `room` levels; its own lists take the second of them. -/
def Mark.ofJson? : (room : Nat) → Value → Option Mark
  | room + 2, value => do
    match ← fields? ["tag", "args", "data", "children"] value with
    | [some tag, some args, data, some children] =>
      return ⟨← shape? tag, ← list? Value.float? args, ← optionalText? data, ← list? (Mark.ofJson? room) children⟩
    | _ => none
  | _, _ => none

def Canvas.ofJson? (value : Value) : Option Canvas := do
  match ← fields? ["width", "height"] value with
  | [some width, some height] => return ⟨← width.float?, ← height.float?⟩
  | _ => none

/-- The levels that a text may have. -/
def jsonRoom : Nat := 127

def Plot.ofJson? (value : Value) : Option Plot := do
  match ← fields? ["canvas", "root", "warnings", "styles"] value with
  | [some canvas, some root, some warnings, some styles] =>
    return ⟨← Canvas.ofJson? canvas, ← Mark.ofJson? (jsonRoom - 1) root, ← list? Value.text? warnings,
      ← list? Value.text? styles⟩
  | _ => none

/-- Reads a plot from JSON text. -/
def Plot.read? (text : String) : Option Plot := (Value.read? text).bind Plot.ofJson?

/-- Reads a mark from JSON text. -/
def Mark.read? (text : String) : Option Mark := (Value.read? text).bind (Mark.ofJson? jsonRoom)

end SvgPlot
