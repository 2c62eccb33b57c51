import SvgPlot.Decimal.Numeral
import SvgPlot.Text.Blank

/-!
# Lengths

A length is a number with a unit, such as `10%`, `2.5in` or `-3`. Reading one and turning it into points are separate:
only the second step needs the reference that percentages are taken of.
-/

namespace SvgPlot

inductive LengthUnit where
  | percent
  | inch
  | centimetre
  | millimetre
  | pica
  | point
  | pixel
deriving Repr, DecidableEq

/-- A length without a suffix is in pixels; suffixes are case-sensitive. -/
def LengthUnit.ofSuffix? (suffix : String) : Option LengthUnit :=
  if suffix = "" ∨ suffix = "px" then some .pixel
  else if suffix = "%" then some .percent
  else if suffix = "in" then some .inch
  else if suffix = "cm" then some .centimetre
  else if suffix = "mm" then some .millimetre
  else if suffix = "pc" then some .pica
  else if suffix = "pt" then some .point
  else none

/-- An inch is 72 points, a pica 12, a pixel one; a percentage is taken of the reference. -/
def LengthUnit.toPoints (unit : LengthUnit) (value reference : Float) : Float :=
  match unit with
  | .percent => value / 100.0 * reference
  | .inch => value * 72.0
  | .centimetre => value * 72.0 / 2.54
  | .millimetre => value * 72.0 / 25.4
  | .pica => value * 12.0
  | .point => value
  | .pixel => value

structure Length where
  value : Float
  unit : LengthUnit
deriving DecidableEq

def Length.toPoints (length : Length) (reference : Float) : Float := length.unit.toPoints length.value reference

/-- Why a text is no length, or no list of coordinates. -/
inductive LengthError where
  /-- The text does not start with a number, or it has a line feed in it. -/
  | notANumber (token : String)
  /-- The number is followed by something else than a unit. -/
  | unknownUnit (suffix : String)
  /-- A list of coordinates whose last pair is not complete. -/
  | oddCount (list : String)
deriving Repr, DecidableEq

def LengthError.message : LengthError → String
  | .notANumber token => s!"invalid number '{token}'"
  | .unknownUnit suffix => s!"invalid unit '{suffix}'"
  | .oddCount list => s!"invalid number 'odd number of coordinates in '{list}''"

/-- Reads a token that has no blanks around it: the longest numeral, then the unit. -/
def Length.ofToken (token : List Char) : Except LengthError Length :=
  if token.contains '\n' then .error (.notANumber (String.ofList token))
  else
    match Decimal.Numeral.read? token with
    | none => .error (.notANumber (String.ofList token))
    | some (numeral, rest) =>
      match LengthUnit.ofSuffix? (String.ofList rest) with
      | none => .error (.unknownUnit (String.ofList rest))
      | some unit => .ok ⟨numeral.toFloat, unit⟩

/-- Reads a length with any blanks around it. -/
def Length.read (raw : String) : Except LengthError Length := Length.ofToken (Text.trimChars raw.toList)

/-- Reads a length and turns it into points. -/
def Length.resolve (raw : String) (reference : Float) : Except LengthError Float :=
  (Length.read raw).map fun length => length.toPoints reference

/-- The separators between coordinates. -/
def separatesCoordinates (c : Char) : Bool := c == ',' || Text.isBlank c

/-- Pairs of neighbours; a last one without a partner is left out. -/
def pairs : List α → List (α × α)
  | x :: y :: rest => (x, y) :: pairs rest
  | _ => []

/-- Reads a list of coordinate pairs. That their number is even comes first, then the coordinates in order. -/
def Length.readPairs (raw : String) : Except LengthError (List (Length × Length)) :=
  let tokens := Text.fields separatesCoordinates raw.toList
  if tokens.length % 2 == 1 then .error (.oddCount (Text.trim raw))
  else (pairs tokens).mapM fun (x, y) => do return (← Length.ofToken x, ← Length.ofToken y)

end SvgPlot
