import SvgPlot.Cli.Setup
import SvgPlot.Exchange
import SvgPlot.Listing
import SvgPlot.Tally

/-!
# Reports

What the commands print, in colour or without.
-/

namespace SvgPlot.Cli

open Json (Value)

/-! ## Colours -/

inductive Paint where
  | heading
  | strong
  | faint
  | alert
  | mark
  | success
  | failure
deriving Repr, DecidableEq

/-- The terminal code of a paint. -/
def Paint.code : Paint → String
  | .heading => "1;36"
  | .strong => "1"
  | .faint => "2"
  | .alert => "1;33"
  | .mark => "33"
  | .success => "32"
  | .failure => "1;31"

/-- A text in a paint, if there are colours. -/
def Paint.on (paint : Paint) (coloured : Bool) (text : String) : String :=
  if coloured then s!"\x1b[{paint.code}m{text}\x1b[0m" else text

/-- Lines with their ends. -/
def joinLines (lines : List String) : String := String.join (lines.map fun line => line ++ "\n")

/-! ## Reports of the commands -/

def versionLine : String := "unsvg 0.1.0"

def versionReport (coloured : Bool) : String :=
  joinLines
    [Paint.heading.on coloured "unsvg" ++ " 0.1.0", "SVG to drawing instruction compiler", "",
      "Repository: " ++ Paint.faint.on coloured "https://github.com/iyulab/unsvg", "License: MIT"]

def rule (coloured : Bool) : String := Paint.faint.on coloured (String.ofList (List.replicate 40 '─'))

/-- The numbers of marks without the root, by the names of their shapes. -/
def tallyOf (plot : Plot) : Tally := Tally.below plot.root

def infoJson (file : String) (plot : Plot) : Value :=
  let tally := tallyOf plot
  .ofMembers
    [("canvas", .ofMembers [("height", .ofFloat plot.canvas.height), ("width", .ofFloat plot.canvas.width)]),
      ("file", .ofString file), ("instructions", .ofNat tally.total), ("styles", .ofNat plot.styles.length),
      ("tags", .ofMembers (tally.entries.map fun (shape, n) => (shape.name, .ofNat n))),
      ("warnings", .array (plot.warnings.map .ofString))]

/-- A label and what it is for. -/
def labelled (coloured : Bool) (label text : String) : String := Paint.strong.on coloured label ++ ": " ++ text

def infoReport (coloured : Bool) (file : String) (plot : Plot) : String :=
  let tally := tallyOf plot
  let size := s!"{Decimal.plain plot.canvas.width} x {Decimal.plain plot.canvas.height} pt"
  let general :=
    [Paint.heading.on coloured "Drawing Information", rule coloured, labelled coloured "File" file,
      labelled coloured "Canvas" size, labelled coloured "Style blocks" (toString plot.styles.length), ""]
  let shapes := tally.entries.map fun (shape, n) => labelled coloured shape.name (toString n)
  let counts :=
    [Paint.heading.on coloured "Instructions", rule coloured] ++ shapes ++
      [labelled coloured "Total" (toString tally.total)]
  let warnings :=
    if plot.warnings.isEmpty then []
    else
      ["", Paint.alert.on coloured "Warnings" ++ s!" ({plot.warnings.length})", rule coloured] ++
        plot.warnings.map fun warning => "  " ++ Paint.mark.on coloured "!" ++ " " ++ warning
  joinLines (general ++ counts ++ warnings)

def stylesReport (coloured : Bool) (plot : Plot) : String :=
  if plot.styles.isEmpty then joinLines [Paint.faint.on coloured "No style blocks"]
  else joinLines [plot.stylesheet.text]

def savedReport (coloured : Bool) (path : String) : String :=
  joinLines [Paint.success.on coloured "Saved to" ++ " " ++ path]

def failureReport (coloured : Bool) (failure : Failure) : String :=
  joinLines [Paint.failure.on coloured "Error" ++ ": " ++ failure.message]

def helpReport : String :=
  joinLines
    ["Compile SVG markup into page drawing instructions", "", "Usage: unsvg <COMMAND>", "", "Commands:",
      "  json     Print the drawing as JSON", "  text     Print the instruction tree as indented text",
      "  info     Show canvas, instruction counts and warnings", "  styles   Print collected style blocks",
      "  version  Show version information", "  help     Print this message"]

end SvgPlot.Cli
