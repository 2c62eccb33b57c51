import SvgPlot.Json.Value
import SvgPlot.Text.Quoted

/-!
# Writing JSON

A value as text, either on one line without blanks, or with one item a line and two blanks for each level. Empty lists
and objects have nothing in their brackets in both.
-/

namespace SvgPlot.Json

inductive Style where
  | compact
  | pretty
deriving Repr, DecidableEq

/-- Four hexadecimal digits of a character number below 256. -/
def hexFour (n : Nat) : List Char :=
  let digits := Text.hexDigits n
  List.replicate (4 - digits.length) '0' ++ digits

/-- A character in a string: quotes, backslashes and control characters are escaped, and nothing else. -/
def escapedChar (c : Char) : List Char :=
  match c with
  | '"' => ['\\', '"']
  | '\\' => ['\\', '\\']
  | '\x08' => ['\\', 'b']
  | '\x0c' => ['\\', 'f']
  | '\n' => ['\\', 'n']
  | '\r' => ['\\', 'r']
  | '\t' => ['\\', 't']
  | c => if c.toNat < 0x20 then '\\' :: 'u' :: hexFour c.toNat else [c]

/-- A string in quotes; one that is no text is written as if it were empty. -/
def stringText (s : Str) : List Char := '"' :: (s.getD "").toList.flatMap escapedChar ++ ['"']

/-- The start of a new line at some level, in front of a text. -/
def Style.newLine (style : Style) (level : Nat) (tail : List Char) : List Char :=
  match style with
  | .compact => tail
  | .pretty => '\n' :: (List.replicate (2 * level) ' ' ++ tail)

/-- What stands between a key and its value, in front of a text. -/
def Style.colon (style : Style) (tail : List Char) : List Char :=
  match style with
  | .compact => ':' :: tail
  | .pretty => ':' :: ' ' :: tail

mutual

/-- A value in front of a text. -/
def Value.writeOnto (style : Style) (level : Nat) (tail : List Char) : Value → List Char
  | .null => "null".toList ++ tail
  | .bool true => "true".toList ++ tail
  | .bool false => "false".toList ++ tail
  | .number n => n.text ++ tail
  | .string s => stringText s ++ tail
  | .array [] => '[' :: ']' :: tail
  | .array (item :: items) =>
    '[' :: style.newLine (level + 1)
      (item.writeOnto style (level + 1) (writeItems style (level + 1) (style.newLine level (']' :: tail)) items))
  | .object [] => '\x7b' :: '\x7d' :: tail
  | .object ((key, value) :: members) =>
    '\x7b' :: style.newLine (level + 1) (stringText key ++ style.colon
      (value.writeOnto style (level + 1)
        (writeMembers style (level + 1) (style.newLine level ('\x7d' :: tail)) members)))

/-- The items after the first, each with a comma before it. -/
def Value.writeItems (style : Style) (level : Nat) (tail : List Char) : List Value → List Char
  | [] => tail
  | item :: items =>
    ',' :: style.newLine level (item.writeOnto style level (writeItems style level tail items))

/-- The members after the first, each with a comma before it. -/
def Value.writeMembers (style : Style) (level : Nat) (tail : List Char) : List (Str × Value) → List Char
  | [] => tail
  | (key, value) :: members =>
    ',' :: style.newLine level (stringText key ++ style.colon
      (value.writeOnto style level (writeMembers style level tail members)))

end

/-- The text of a value. -/
def Value.write (style : Style) (value : Value) : String := String.ofList (value.writeOnto style 0 [])

end SvgPlot.Json
