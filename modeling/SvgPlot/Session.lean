import SvgPlot.Scene

/-!
# Sessions

A session holds a scene while it is compiled, in whole or element by element, as often as one likes. The notes of all
calls add up, and style blocks go to a sink of the caller's choice, one after the other.
-/

namespace SvgPlot

open Markup (Element)

/-- Something that takes style blocks. -/
class StyleSink (σ : Type) where
  add : σ → String → σ

/-- Keeps the blocks, newest last. -/
structure StyleSheet where
  blocks : Array String
deriving Repr, DecidableEq, Inhabited

namespace StyleSheet

def empty : StyleSheet := ⟨#[]⟩

def add (sheet : StyleSheet) (block : String) : StyleSheet := ⟨sheet.blocks.push block⟩

/-- The text of all blocks, a line feed between them. -/
def text (sheet : StyleSheet) : String := "\n".intercalate sheet.blocks.toList

end StyleSheet

instance : StyleSink StyleSheet := ⟨StyleSheet.add⟩

instance : StyleSink (List String) := ⟨fun blocks block => blocks ++ [block]⟩

/-- A sink that belongs to someone else: what it takes goes to the one that it stands for. -/
structure Borrowed (σ : Type) where
  target : σ
deriving Repr, DecidableEq

instance {σ : Type} [StyleSink σ] : StyleSink (Borrowed σ) := ⟨fun sink block => ⟨StyleSink.add sink.target block⟩⟩

structure Session (σ : Type) where
  scene : Scene
  notes : List Note
  sink : σ

namespace Session

variable {σ : Type} [StyleSink σ]

/-- Notes are added to those so far, and the style blocks among them go to the sink. -/
def record (s : Session σ) (notes : List Note) : Session σ :=
  { s with notes := s.notes ++ notes, sink := (stylesOf notes).foldl StyleSink.add s.sink }

/-- A session on a document, with a sink that may hold blocks already. -/
def start (markup : String) (page : Page) (settings : Settings) (sink : σ) : Except Error (Session σ) :=
  (Scene.of markup page settings).map fun (scene, notes) => ⟨scene, notes, sink⟩

def warnings (s : Session σ) : List Warning := warningsOf s.notes

/-- Completes the mark of an element that has been opened with the marks of all below it. -/
def convert (s : Session σ) (e : Element) (mark : Mark) : Session σ × Except TooDeep Mark :=
  let report := runChildren s.scene.canvas s.scene.settings.maxDepth e mark
  (s.record report.notes, report.result)

/-- Compiles the whole document. -/
def compile (s : Session σ) : Session σ × Except TooDeep Mark :=
  match s.convert s.scene.root containerMark with
  | (s, .error error) => (s, .error error)
  | (s, .ok mark) => (s.record [.finished mark.size s.warnings.length], .ok mark)

/-- Compiles one element, which need not belong to the document, if it comes to a mark. -/
def compileElement (s : Session σ) (e : Element) : Session σ × Except TooDeep (Option Mark) :=
  let opening := openElement s.scene.canvas e
  let s := s.record opening.notes
  match opening.mark with
  | none => (s, .ok none)
  | some mark =>
    let (s, result) := s.convert e mark
    (s, result.map some)

end Session

end SvgPlot
