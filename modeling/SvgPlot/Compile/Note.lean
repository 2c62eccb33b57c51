import SvgPlot.Canvas
import SvgPlot.Markup.PlainText

/-!
# Notes

What a compilation has to tell besides the marks: warnings, style blocks, and what it passed over. The notes of a run
are kept in one list in the order they came up; the warnings, the style blocks and the log are views of it.
-/

namespace SvgPlot

/-- Why the value of an attribute was not used. -/
inductive BadValue where
  | length (error : LengthError)
  /-- a side of the canvas that is zero, negative or not a number -/
  | notPositive
deriving Repr, DecidableEq

def BadValue.message : BadValue → String
  | .length error => error.message
  | .notPositive => "must be positive"

/-- What is wrong with an element that does not stop the compilation. -/
inductive Warning where
  | unknownElement (element : String)
  | missingAttributes (keys : List String) (element : String)
  | invalidValue (raw key element : String) (reason : BadValue)
deriving Repr, DecidableEq

def Warning.message : Warning → String
  | .unknownElement element => s!"Unknown tag: {element}"
  | .missingAttributes keys element =>
    let list := ", ".intercalate keys
    s!"Must have attributes {list} on tag {element}"
  | .invalidValue raw key element reason =>
    s!"Invalid value '{raw}' for attribute {key} on tag {element}: {reason.message}"

inductive Note where
  | warning (warning : Warning)
  /-- the text of a style element -/
  | style (block : String)
  /-- an element that only tells about the drawing -/
  | skipped (element : String)
  | kept (reference : Markup.KeptReference)
  /-- the canvas was settled, in a document of so many elements -/
  | settled (canvas : Canvas) (elements : Nat)
  /-- a whole document was compiled -/
  | finished (marks warnings : Nat)
deriving DecidableEq

def Note.warning? : Note → Option Warning
  | .warning w => some w
  | _ => none

def Note.style? : Note → Option String
  | .style block => some block
  | _ => none

/-- The warnings among notes, in order. -/
def warningsOf (notes : List Note) : List Warning := notes.filterMap Note.warning?

/-- The style blocks among notes, in order. -/
def stylesOf (notes : List Note) : List String := notes.filterMap Note.style?

end SvgPlot
