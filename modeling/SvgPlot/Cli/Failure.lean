import SvgPlot.Error

/-!
# Failures of a command
-/

namespace SvgPlot.Cli

/-- Why a command that was understood cannot be done. -/
inductive Failure where
  /-- a page that is neither a name nor two sizes -/
  | pageForm (spec : String)
  | pageWidth (text : String)
  | pageHeight (text : String)
  /-- an extra option without an equals sign -/
  | extraForm (entry : String)
  | error (cause : Error)
  /-- a file that cannot be written -/
  | output (fault : FileFault)
deriving DecidableEq

def Failure.message : Failure → String
  | .pageForm spec => s!"Invalid page box '{spec}': expected WIDTHxHEIGHT"
  | .pageWidth text => s!"Invalid page width '{text}'"
  | .pageHeight text => s!"Invalid page height '{text}'"
  | .extraForm entry => s!"Invalid option '{entry}': expected KEY=VALUE"
  | .error cause => cause.message
  | .output fault => fault.message

end SvgPlot.Cli
