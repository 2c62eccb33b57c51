import SvgPlot.Cli.Command
import SvgPlot.Cli.Failure
import SvgPlot.Plot

/-!
# Setting up a compiler

The page and the settings that a command line asks for. A page is a name or two sizes with an `x` between them, and an
extra option is a key and a value with an equals sign between them.
-/

namespace SvgPlot.Cli

/-- A text in lower case, as far as it is ASCII. -/
def lowercase (s : String) : String := String.ofList (s.toList.map Char.toLower)

/-- The names that stand for values without a numeral. -/
def readNamed? (name : String) : Option Float :=
  if name = "inf" ∨ name = "infinity" then some (1.0 / 0.0)
  else if name = "nan" then some (0.0 / 0.0)
  else none

/-- A double that fills a whole text: a numeral, or the name of a value with a sign perhaps, in any case. -/
def readFloat? (text : List Char) : Option Float :=
  match Decimal.Numeral.read? text with
  | some (n, []) => some n.toFloat
  | some _ => none
  | none =>
    (readNamed? (lowercase (String.ofList (Decimal.afterSign text)))).map fun x =>
      if Decimal.signOf text == some '-' then -x else x

/-- The text before the first character of some kind, and the text after it. -/
def splitAt? (isMark : Char → Bool) (s : String) : Option (String × String) :=
  match s.toList.dropWhile fun c => !isMark c with
  | [] => none
  | _ :: after => some (String.ofList (s.toList.takeWhile fun c => !isMark c), String.ofList after)

/-- The page that a text describes. -/
def readPage (spec : String) : Except Failure Page :=
  if lowercase spec = "letter" then .ok Page.letter
  else if lowercase spec = "a4" then .ok Page.a4
  else
    match splitAt? (fun c => c == 'x' || c == 'X') spec with
    | none => .error (.pageForm spec)
    | some (widthText, heightText) =>
      match readFloat? (Text.trimChars widthText.toList), readFloat? (Text.trimChars heightText.toList) with
      | none, _ => .error (.pageWidth widthText)
      | some _, none => .error (.pageHeight heightText)
      | some width, some height =>
        match Page.of? width height with
        | some page => .ok page
        | none => .error (.error (.badPage width height))

/-- The settings with an extra option added. -/
def addExtra (settings : Settings) (entry : String) : Except Failure Settings :=
  match splitAt? (· == '=') entry with
  | none => .error (.extraForm entry)
  | some (key, value) => .ok (settings.withExtra (Text.trim key) (Text.trim value))

/-- The settings of an input. -/
def readSettings (input : Input) : Except Failure Settings :=
  let settings : Settings := {}
  input.extras.foldlM addExtra { settings with maxDepth := input.maxDepth.getD settings.maxDepth }

/-- The compiler that an input asks for; what is wrong with the page comes first. -/
def Input.compiler (input : Input) : Except Failure Compiler := do
  let page ← readPage input.page
  let settings ← readSettings input
  return { page, settings }

/-- The plot of an input, from what reading its file came to. -/
def Input.plot (input : Input) (file : Except FileFault (List UInt8)) : Except Failure Plot := do
  let compiler ← input.compiler
  (compiler.compileFile file).mapError .error

end SvgPlot.Cli
