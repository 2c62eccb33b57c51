import SvgPlot.Cli.Program

/-!
# The command line program

Reads the file that a command needs, prints and saves what the command answers. All decisions are made in
`SvgPlot.Cli.Program`.
-/

namespace SvgPlot.Cli

/-- The number of a fault of the system, which comes with either sign. -/
def systemCode (code : UInt32) : UInt32 := if code < 0x80000000 then code else 0 - code

/-- Which fault of a file has a number. -/
def systemFault (code : UInt32) (details : String) : FileFault :=
  match (systemCode code).toNat with
  | 2 => .noSuchFile
  | 13 => .permissionDenied
  | 20 => .notADirectory
  | 21 => .isADirectory
  | 36 => .nameTooLong
  | 40 => .tooManyLinks
  | number => .other s!"{details} (os error {number})"

/-- Which fault of a file an error is. -/
def fileFault : IO.Error → FileFault
  | .alreadyExists _ code details | .inappropriateType _ code details | .interrupted _ code details
  | .invalidArgument _ code details | .noFileOrDirectory _ code details | .noSuchThing _ code details
  | .permissionDenied _ code details | .resourceExhausted _ code details => systemFault code details
  | .hardwareFault code details | .illegalOperation code details | .otherError code details
  | .protocolError code details | .resourceBusy code details | .resourceVanished code details
  | .timeExpired code details | .unsatisfiedConstraints code details | .unsupportedOperation code details =>
    systemFault code details
  | error => .other (toString error)

/-- What reading a file comes to. -/
def readFile (path : String) : IO (Except FileFault (List UInt8)) := do
  try
    return .ok (← IO.FS.readBinFile path).toList
  catch error => return .error (fileFault error)

/-- What writing a file comes to. That there is no room for it may turn out only when all is flushed. -/
def writeFile (path text : String) : IO (Except FileFault Unit) := do
  try
    IO.FS.withFile path .write fun file => do
      file.putStr text
      file.flush
    return .ok ()
  catch error => return .error (fileFault error)

/-- Whether the environment asks for colours. -/
def wantsColours : IO Bool := do
  let force ← IO.getEnv "CLICOLOR_FORCE"
  let never ← IO.getEnv "NO_COLOR"
  return force.any (· != "0") && never.isNone

def runCommand (coloured : Bool) (command : Command) : IO Outcome := do
  let file ←
    match command.input? with
    | some input => readFile input.file
    | none => pure (.ok [])
  match command.answer coloured file with
  | .print text => return .printed text
  | .fail failure => return .failed coloured failure
  | .save path text =>
    match ← writeFile path text with
    | .ok () => return .saved coloured path
    | .error fault => return .failed coloured (.output fault)

end SvgPlot.Cli

open SvgPlot.Cli in
def main (words : List String) : IO UInt32 := do
  let coloured ← wantsColours
  let outcome ←
    match Request.of (← IO.getEnv "UNSVG_PAGE") words with
    | .run command => runCommand coloured command
    | .shortVersion => pure (Outcome.printed (versionLine ++ "\n"))
    | .help => pure (Outcome.printed helpReport)
    | .misuse => pure Outcome.misused
  IO.print outcome.stdout
  IO.eprint outcome.stderr
  return UInt32.ofNat outcome.code
