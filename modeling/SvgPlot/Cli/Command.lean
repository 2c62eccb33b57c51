import SvgPlot.Decimal.Digits

/-!
# Command lines

The words of a command line read as a command. Options may stand before or after the file, and `--` ends them. An option
that takes a value takes it from the same word or from the next one, which must not look like an option. Words are read
from the left; the first one that is wrong, or that asks for help, decides.
-/

namespace SvgPlot.Cli

/-- What every command needs that reads a file. -/
structure Input where
  file : String
  page : String
  maxDepth : Option Nat
  extras : List String
deriving Repr, DecidableEq

inductive Command where
  | json (input : Input) (output : Option String) (compact : Bool)
  | text (input : Input) (output : Option String) (precision : Nat) (noData : Bool)
  | info (input : Input) (asJson : Bool)
  | styles (input : Input)
  | version
deriving Repr, DecidableEq

/-- What a command line asks for. -/
inductive Request where
  | run (command : Command)
  /-- the name and the version in one line -/
  | shortVersion
  | help
  /-- a command line that cannot be understood -/
  | misuse
deriving Repr, DecidableEq

/-! ## Options -/

/-- The options of all commands. -/
inductive Flag where
  | page
  | maxDepth
  | extra
  | output
  | compact
  | precision
  | noData
  | json
deriving Repr, DecidableEq

namespace Flag

def long : Flag → String
  | page => "page"
  | maxDepth => "max-depth"
  | extra => "option"
  | output => "output"
  | compact => "compact"
  | precision => "precision"
  | noData => "no-data"
  | json => "json"

def short? : Flag → Option Char
  | extra => some 'O'
  | output => some 'o'
  | _ => none

def takesValue : Flag → Bool
  | compact | noData | json => false
  | _ => true

/-- Whether an option may be given more than once. -/
def repeats (flag : Flag) : Bool := flag == extra

end Flag

/-- The first words of commands. -/
inductive Verb where
  | json
  | text
  | info
  | styles
  | version
deriving Repr, DecidableEq

namespace Verb

def ofName? (name : String) : Option Verb :=
  if name = "json" then some json
  else if name = "text" then some text
  else if name = "info" then some info
  else if name = "styles" then some styles
  else if name = "version" then some version
  else none

def flags : Verb → List Flag
  | json => [.page, .maxDepth, .extra, .output, .compact]
  | text => [.page, .maxDepth, .extra, .output, .precision, .noData]
  | info => [.page, .maxDepth, .extra, .json]
  | styles => [.page, .maxDepth, .extra]
  | version => []

end Verb

/-- Why no command comes of the words. -/
inductive Refusal where
  | help
  | misuse
deriving Repr, DecidableEq

/-- The options and files given so far, the last one first. An option without a value has an empty one. -/
structure Given where
  options : List (Flag × String)
  files : List String
deriving Repr, DecidableEq

/-- A whole number that fits in 64 bits, perhaps with a plus sign. -/
def readCount? (word : String) : Option Nat :=
  let digits :=
    match word.toList with
    | '+' :: digits => digits
    | digits => digits
  if digits.isEmpty || !digits.all Char.isDigit then none
  else
    let value := Decimal.digitsUpTo 0x10000000000000000 digits
    if value ≤ 0xffffffffffffffff then some value else none

namespace Given

def empty : Given := ⟨[], []⟩

def values (g : Given) (flag : Flag) : List String :=
  (g.options.reverse.filter fun entry => entry.1 == flag).map Prod.snd

/-- The value of an option that is given at most once. -/
def value? (g : Given) (flag : Flag) : Option String := (g.values flag).head?

def has (g : Given) (flag : Flag) : Bool := (g.value? flag).isSome

/-- Whether an option can have this value. -/
def accepts (flag : Flag) (value : String) : Bool :=
  match flag with
  | .maxDepth | .precision => (readCount? value).isSome
  | .output => !value.isEmpty
  | _ => true

/-- Takes in an option with its value. -/
def addOption (g : Given) (flag : Flag) (value : String) : Except Refusal Given :=
  if g.has flag && !flag.repeats then .error .misuse
  else if !accepts flag value then .error .misuse
  else .ok { g with options := (flag, value) :: g.options }

/-- Takes in a file; there is one for each command but `version`. -/
def addFile (g : Given) (verb : Verb) (file : String) : Except Refusal Given :=
  if verb = .version || !g.files.isEmpty || file.isEmpty then .error .misuse
  else .ok { g with files := file :: g.files }

end Given

/-- What a word is, by the dashes it starts with. -/
inductive Word where
  | plain
  /-- `--` -/
  | endOfOptions
  /-- `--name` or `--name=value` -/
  | long (name : String) (value : Option String)
  /-- `-c`, with what follows in the same word -/
  | short (letter : Char) (rest : List Char)
deriving Repr, DecidableEq

def Word.of (word : String) : Word :=
  match word.toList with
  | ['-', '-'] => .endOfOptions
  | '-' :: '-' :: text =>
    match text.dropWhile (· != '=') with
    | [] => .long (String.ofList text) none
    | _ :: value => .long (String.ofList (text.takeWhile (· != '='))) (some (String.ofList value))
  | '-' :: letter :: rest => .short letter rest
  | _ => .plain

/-- The value that stands in the same word as a short option. -/
def valueInWord? : List Char → Option String
  | [] => none
  | '=' :: value => some (String.ofList value)
  | value => some (String.ofList value)

/-- An option of a command, with the value that stands in the same word. -/
def findFlag (verb : Verb) : Word → Except Refusal (Flag × Option String)
  | .long name value =>
    if name = "help" ∧ value.isNone then .error .help
    else
      match verb.flags.find? fun flag => flag.long == name with
      | some flag => .ok (flag, value)
      | none => .error .misuse
  | .short letter rest =>
    if letter = 'h' then .error .help
    else
      match verb.flags.find? fun flag => flag.short? == some letter with
      | some flag => .ok (flag, valueInWord? rest)
      | none => .error .misuse
  | _ => .error .misuse

/-- Reads the words after the verb. -/
def readWords (verb : Verb) (given : Given) : (onlyFiles : Bool) → List String → Except Refusal Given
  | _, [] => .ok given
  | true, word :: words => do readWords verb (← given.addFile verb word) true words
  | false, word :: words =>
    match Word.of word with
    | .plain => do readWords verb (← given.addFile verb word) false words
    | .endOfOptions => readWords verb given true words
    | option => do
      match ← findFlag verb option with
      | (flag, some value) =>
        if flag.takesValue then readWords verb (← given.addOption flag value) false words else .error .misuse
      | (flag, none) =>
        if flag.takesValue then
          match words with
          | value :: words =>
            if Word.of value = .plain then readWords verb (← given.addOption flag value) false words
            else .error .misuse
          | [] => .error .misuse
        else readWords verb (← given.addOption flag "") false words

/-- The input that was given; the page comes from the environment if no option says it. -/
def Given.input? (g : Given) (pageOfEnvironment : Option String) : Option Input :=
  g.files.head?.map fun file =>
    { file
      page := (g.value? .page).getD (pageOfEnvironment.getD "letter")
      maxDepth := (g.value? .maxDepth).bind readCount?
      extras := g.values .extra }

/-- The command that was given, if nothing is missing. -/
def Given.command? (g : Given) (pageOfEnvironment : Option String) (verb : Verb) : Option Command :=
  let input := g.input? pageOfEnvironment
  match verb with
  | .json => input.map fun input => .json input (g.value? .output) (g.has .compact)
  | .text =>
    let precision := ((g.value? .precision).bind readCount?).getD 2
    input.map fun input => .text input (g.value? .output) precision (g.has .noData)
  | .info => input.map fun input => .info input (g.has .json)
  | .styles => input.map .styles
  | .version => some .version

/-- The request of a command with the words after its verb. -/
def requestOf (pageOfEnvironment : Option String) (verb : Verb) (words : List String) : Request :=
  match readWords verb Given.empty false words with
  | .error .help => .help
  | .error .misuse => .misuse
  | .ok given => (given.command? pageOfEnvironment verb).elim .misuse .run

/-- The request of a whole command line. -/
def Request.of (pageOfEnvironment : Option String) : List String → Request
  | [] => .misuse
  | word :: words =>
    match Word.of word with
    | .long name none => if name = "version" then .shortVersion else if name = "help" then .help else .misuse
    | .short letter _ => if letter = 'V' then .shortVersion else if letter = 'h' then .help else .misuse
    | .plain =>
      if word = "help" then
        match words with
        | [] => .help
        | [topic] => if topic = "help" || (Verb.ofName? topic).isSome then .help else .misuse
        | _ => .misuse
      else (Verb.ofName? word).elim .misuse fun verb => requestOf pageOfEnvironment verb words
    | _ => .misuse

end SvgPlot.Cli
