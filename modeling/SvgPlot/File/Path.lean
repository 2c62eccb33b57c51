import SvgPlot.Text.Size

/-!
# Paths

The text of a path taken apart at its slashes.
-/

namespace SvgPlot

/-- A path taken apart. Empty names count for nothing. -/
structure Path where
  /-- whether it starts at the root of all files -/
  fromRoot : Bool
  names : List String
  /-- whether it ends in a slash, and so can lead to a directory only -/
  toDirectory : Bool
deriving Repr, DecidableEq

namespace Path

def of (text : String) : Path :=
  let chars := text.toList
  { fromRoot := chars.head? == some '/'
    names := ((chars.splitOn '/').filter fun name => !name.isEmpty).map String.ofList
    toDirectory := chars.getLast? == some '/' }

/-- The name by which every directory knows itself. -/
def itself : String := "."

/-- The name by which every directory knows the one that it is in. -/
def outward : String := ".."

/-- What the slash at the end of a path is among its steps. No name is empty. -/
def slash : String := ""

/-- The names to follow, and the slash at the end. -/
def steps (path : Path) : List String := if path.toDirectory then path.names ++ [slash] else path.names

/-- The most bytes of a name. -/
def nameLimit : Nat := 255

/-- The most bytes of a path. -/
def limit : Nat := 4095

/-- The most links on the way. -/
def linkLimit : Nat := 40

end Path

end SvgPlot
