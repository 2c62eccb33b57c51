import SvgPlot.Compile.Note
import SvgPlot.Decimal.Notation

/-!
# The log

The notes of a compilation as lines of a log. Style blocks are not logged.
-/

namespace SvgPlot

inductive LogLevel where
  | debug
  | warn
deriving Repr, DecidableEq

structure LogLine where
  level : LogLevel
  text : String
deriving Repr, DecidableEq

def Note.logLine? : Note → Option LogLine
  | .warning w => some ⟨.warn, w.message⟩
  | .style _ => none
  | .skipped element => some ⟨.debug, s!"Skipping <{element}>"⟩
  | .kept reference => some ⟨.warn, reference.message⟩
  | .settled canvas elements =>
    let size := s!"{Decimal.plain canvas.width}x{Decimal.plain canvas.height}pt"
    some ⟨.debug, s!"Resolved canvas {size} for {elements} elements"⟩
  | .finished marks warnings => some ⟨.debug, s!"Parsed {marks} instructions with {warnings} warnings"⟩

def logOf (notes : List Note) : List LogLine := notes.filterMap Note.logLine?

end SvgPlot
