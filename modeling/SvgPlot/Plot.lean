import SvgPlot.Compile.Log
import SvgPlot.Session

/-!
# Plots

A plot is all that comes of a document: the canvas, the marks, the warnings and the style blocks. `Compiler` holds a
page and settings to make plots with, from text or from the bytes of a file.
-/

namespace SvgPlot

structure Plot where
  canvas : Canvas
  root : Mark
  warnings : List String
  styles : List String

namespace Plot

/-- The marks that are not inside another but the root. -/
def marks (plot : Plot) : List Mark := plot.root.children

def hasWarnings (plot : Plot) : Bool := !plot.warnings.isEmpty

def stylesheet (plot : Plot) : StyleSheet := ⟨plot.styles.toArray⟩

/-- What a finished session has gathered around its marks. -/
def ofSession (s : Session StyleSheet) (root : Mark) : Plot :=
  ⟨s.scene.canvas, root, s.warnings.map Warning.message, s.sink.blocks.toList⟩

end Plot

/-- The page that plots are made for, and the settings they are made with. -/
structure Compiler where
  page : Page := Page.letter
  settings : Settings := {}
deriving Inhabited

namespace Compiler

def withPage (c : Compiler) (page : Page) : Compiler := { c with page }

def withMaxDepth (c : Compiler) (limit : Nat) : Compiler :=
  { c with settings := { c.settings with maxDepth := limit } }

def withExtra (c : Compiler) (key value : String) : Compiler :=
  { c with settings := c.settings.withExtra key value }

/-- The plot of a document, and the log of making it, which there is also if that fails. -/
def compileLogged (c : Compiler) (markup : String) : List LogLine × Except Error Plot :=
  match Session.start markup c.page c.settings StyleSheet.empty with
  | .error error => ([], .error error)
  | .ok session =>
    let (session, result) := session.compile
    (logOf session.notes,
      match result with
      | .error error => .error (.tooDeep error.limit)
      | .ok root => .ok (Plot.ofSession session root))

/-- The plot of a document. -/
def compile (c : Compiler) (markup : String) : Except Error Plot := (c.compileLogged markup).2

/-- The plot of the document in some bytes, which may be compressed. -/
def compileBytes (c : Compiler) (bytes : List UInt8) : Except Error Plot :=
  match Source.readMarkup bytes with
  | .error error => .error (.ofSource error)
  | .ok markup => c.compile markup

/-- The plot of a file, from what reading it came to. -/
def compileFile (c : Compiler) (file : Except FileFault (List UInt8)) : Except Error Plot :=
  match file with
  | .error fault => .error (.file fault)
  | .ok bytes => c.compileBytes bytes

end Compiler

end SvgPlot
