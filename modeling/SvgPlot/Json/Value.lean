import SvgPlot.Decimal.Numeral

/-!
# JSON values

Values as a text spells them. Numbers are kept as they are written, members in their order with repeated keys, and a
string need not be one: its escapes may spell half of a surrogate pair.
-/

namespace SvgPlot.Json

/-- A string; `none` if its escapes leave half of a surrogate pair alone. -/
abbrev Str := Option String

inductive Value where
  | null
  | bool (b : Bool)
  | number (n : Decimal.Numeral)
  | string (s : Str)
  | array (items : List Value)
  | object (members : List (Str × Value))
deriving Inhabited

namespace Value

def ofString (s : String) : Value := .string (some s)

def ofNat (n : Nat) : Value := .number (Decimal.Numeral.ofNat n)

/-- An object with these members. -/
def ofMembers (members : List (String × Value)) : Value :=
  .object (members.map fun (key, value) => (some key, value))

end Value

end SvgPlot.Json
