import SvgPlot.Dictionary

/-!
# Settings of a compilation
-/

namespace SvgPlot

/-- `maxDepth` bounds the nesting of elements, the root being at depth 1; `extra` is carried along unread. -/
structure Settings where
  maxDepth : Nat := 256
  extra : Dictionary := Dictionary.empty
deriving DecidableEq, Inhabited

def Settings.withExtra (settings : Settings) (key value : String) : Settings :=
  { settings with extra := settings.extra.insert key value }

end SvgPlot
