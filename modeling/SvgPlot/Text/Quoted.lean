import SvgPlot.Text.Hidden

/-!
# Quoted text

Text in double quotes on one line. Quotes, backslashes and line ends are escaped with a backslash, and so is every
character that would not show, by its code point. Nothing else is changed.
-/

namespace SvgPlot.Text

/-- The digits of a number in base 16, in lower case. -/
def hexDigits (n : Nat) : List Char := Nat.toDigits 16 n

/-- Whether a character is shown as it is. -/
def isShown (c : Char) : Bool :=
  if c.toNat < 0x7f then 0x20 ≤ c.toNat else !isHidden c

/-- A character as it stands between the quotes. -/
def quotedChar (c : Char) : List Char :=
  match c with
  | '"' => ['\\', '"']
  | '\\' => ['\\', '\\']
  | '\n' => ['\\', 'n']
  | '\r' => ['\\', 'r']
  | '\t' => ['\\', 't']
  | '\x00' => ['\\', '0']
  | c => if isShown c then [c] else ['\\', 'u', '\x7b'] ++ hexDigits c.toNat ++ ['\x7d']

def quoted (cs : List Char) : List Char := '"' :: cs.flatMap quotedChar ++ ['"']

end SvgPlot.Text
