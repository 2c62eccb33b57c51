/-!
# Faults of files

Why a file can be neither read nor written, and how the system says so.
-/

namespace SvgPlot

inductive FileFault where
  | noSuchFile
  | permissionDenied
  /-- a file where the path goes on as if it were a directory -/
  | notADirectory
  /-- a directory where a file is meant -/
  | isADirectory
  | nameTooLong
  /-- links that lead to links without an end in sight -/
  | tooManyLinks
  | other (text : String)
deriving Repr, DecidableEq

def FileFault.message : FileFault → String
  | .noSuchFile => "No such file or directory (os error 2)"
  | .permissionDenied => "Permission denied (os error 13)"
  | .notADirectory => "Not a directory (os error 20)"
  | .isADirectory => "Is a directory (os error 21)"
  | .nameTooLong => "File name too long (os error 36)"
  | .tooManyLinks => "Too many levels of symbolic links (os error 40)"
  | .other text => text

end SvgPlot
