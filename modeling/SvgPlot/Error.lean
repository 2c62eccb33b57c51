import SvgPlot.Decimal.Notation
import SvgPlot.File.Fault
import SvgPlot.Length
import SvgPlot.Markup.Tree
import SvgPlot.Source.Format

/-!
# Errors

What can keep a plot from being made at all. What is wrong with a single element is a warning instead.
-/

namespace SvgPlot

inductive Error where
  | file (fault : FileFault)
  /-- a gzip member that cannot be unpacked -/
  | packed (fault : Source.GzipFault)
  | unknownFormat
  | encoding (fault : Text.Utf8Fault)
  | malformed (cause : Markup.Malformed)
  | notSvg (root : String)
  | badPage (width height : Float)
  | badLength (error : LengthError)
  | tooDeep (limit : Nat)
deriving DecidableEq

namespace Error

def message : Error → String
  | file fault => s!"I/O error: {fault.message}"
  | packed fault => s!"I/O error: {fault.message}"
  | unknownFormat => "Unknown file format: not SVG markup"
  | encoding fault => s!"Encoding error: {fault.message}"
  | malformed cause => s!"XML parse error: {cause.message}"
  | notSvg root => s!"Root element is <{root}>, expected <svg>"
  | badPage width height =>
    s!"Invalid page box: {Decimal.plain width} x {Decimal.plain height} (both sides must be positive)"
  | badLength error => error.message
  | tooDeep limit => s!"Element nesting exceeds the maximum depth of {limit}"

def ofSource : Source.SourceError → Error
  | .unknownFormat => .unknownFormat
  | .packed fault => .packed fault
  | .encoding fault => .encoding fault

def ofTree : Markup.TreeError → Error
  | .malformed cause => .malformed cause
  | .tooDeep limit => .tooDeep limit

end Error

end SvgPlot
