import SvgPlot.Compile.Run
import SvgPlot.Error
import SvgPlot.Page
import SvgPlot.Settings

/-!
# Scenes

A scene is a document that is ready to be compiled: its element tree, and the canvas it is drawn on. Markup that gives
no tree, or whose root is no `svg`, makes no scene; a bad size of the root only warns, and the page stands in for it.
-/

namespace SvgPlot

open Markup (Element)

structure Scene where
  markup : String
  root : Element
  page : Page
  canvas : Canvas
  settings : Settings

namespace Scene

def rootName : String := "svg"

/-- One side of the canvas: what the root says if it is positive, else the side of the page. -/
def side (root : Element) (key : String) (pageSide : Float) : Float × List Warning :=
  match root.attributes.get? key with
  | none => (pageSide, [])
  | some raw =>
    match Length.resolve raw pageSide with
    | .ok value =>
      if 0.0 < value then (value, []) else (pageSide, [.invalidValue raw key rootName .notPositive])
    | .error error => (pageSide, [.invalidValue raw key rootName (.length error)])

/-- The canvas of a root element, and the warnings about its size. -/
def canvasOf (root : Element) (page : Page) : Canvas × List Warning :=
  let (width, aboutWidth) := side root "width" page.width
  let (height, aboutHeight) := side root "height" page.height
  (⟨width, height⟩, aboutWidth ++ aboutHeight)

/-- The scene of a root element, and the notes from settling its canvas. -/
def ofRoot (markup : String) (root : Element) (page : Page) (settings : Settings) : Scene × List Note :=
  let (canvas, warnings) := canvasOf root page
  (⟨markup, root, page, canvas, settings⟩, warnings.map Note.warning ++ [.settled canvas root.count])

def of (markup : String) (page : Page) (settings : Settings) : Except Error (Scene × List Note) :=
  match Element.read settings.maxDepth markup with
  | .error error => .error (.ofTree error)
  | .ok root => if root.name = rootName then .ok (ofRoot markup root page settings) else .error (.notSvg root.name)

end Scene

end SvgPlot
