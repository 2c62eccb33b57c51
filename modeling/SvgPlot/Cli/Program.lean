import SvgPlot.Cli.Report
import SvgPlot.File.System

/-!
# The program

What a command comes to, from the file it reads to what is printed and saved. A command first gives an answer, which
says what to print or save; only then is anything written, so whatever goes wrong before leaves every file as it was.
`runIn` does all of it in a file system given as a value.
-/

namespace SvgPlot.Cli

/-- What a command wants done. -/
inductive Answer where
  | print (text : String)
  | save (path text : String)
  | fail (failure : Failure)

/-- The file that a command reads. -/
def Command.input? : Command → Option Input
  | .json input _ _ => some input
  | .text input _ _ _ => some input
  | .info input _ => some input
  | .styles input => some input
  | .version => none

/-- A text that goes to a file, or to the output with a line end. -/
def emit (output : Option String) (text : String) : Answer :=
  match output with
  | none => .print (text ++ "\n")
  | some path => .save path text

/-- What comes of a plot, or of the failure to make it. -/
def answerWith (plot : Except Failure Plot) (use : Plot → Answer) : Answer :=
  match plot with
  | .error failure => .fail failure
  | .ok plot => use plot

/-- The answer to a command, from what reading its file came to. -/
def Command.answer (coloured : Bool) (file : Except FileFault (List UInt8)) : Command → Answer
  | .json input output compact =>
    answerWith (input.plot file) fun plot => emit output (plot.json (if compact then .compact else .pretty))
  | .text input output precision noData =>
    answerWith (input.plot file) fun plot =>
      emit output (Text.trimEnd (plot.root.listing { precision, showData := !noData }))
  | .info input asJson =>
    answerWith (input.plot file) fun plot =>
      .print
        (if asJson then (infoJson input.file plot).write .pretty ++ "\n" else infoReport coloured input.file plot)
  | .styles input => answerWith (input.plot file) fun plot => .print (stylesReport coloured plot)
  | .version => .print (versionReport coloured)

/-- What is seen of a program that has run. -/
structure Outcome where
  code : Nat
  stdout : String
  stderr : String
deriving Repr, DecidableEq

def Outcome.printed (text : String) : Outcome := ⟨0, text, ""⟩

def Outcome.failed (coloured : Bool) (failure : Failure) : Outcome := ⟨1, "", failureReport coloured failure⟩

/-- A command line that cannot be understood. -/
def Outcome.misused : Outcome := ⟨2, "", helpReport⟩

def Outcome.saved (coloured : Bool) (path : String) : Outcome := printed (savedReport coloured path)

/-! ## In a file system -/

/-- The answer is put into effect. -/
def Answer.apply (coloured : Bool) (s : FileSystem) : Answer → Outcome × FileSystem
  | .print text => (.printed text, s)
  | .fail failure => (.failed coloured failure, s)
  | .save path text =>
    match s.write path (Text.encodeUtf8 text) with
    | (.ok (), after) => (.saved coloured path, after)
    | (.error fault, after) => (.failed coloured (.output fault), after)

/-- What reading the file of a command comes to; a command without a file has nothing to read. -/
def Command.inputBytes (s : FileSystem) (command : Command) : Except FileFault (List UInt8) :=
  match command.input? with
  | some input => s.read input.file
  | none => .ok []

/-- Runs a command. -/
def Command.runIn (coloured : Bool) (s : FileSystem) (command : Command) : Outcome × FileSystem :=
  (command.answer coloured (command.inputBytes s)).apply coloured s

/-- Runs the program with some words. -/
def runIn (coloured : Bool) (pageOfEnvironment : Option String) (s : FileSystem) (words : List String) :
    Outcome × FileSystem :=
  match Request.of pageOfEnvironment words with
  | .run command => command.runIn coloured s
  | .shortVersion => (.printed (versionLine ++ "\n"), s)
  | .help => (.printed helpReport, s)
  | .misuse => (.misused, s)

end SvgPlot.Cli
