import SvgPlot.Json.Token

/-!
# Reading JSON

Tokens are folded into a value by a stack of the lists and objects that are still open. Nothing may follow the value.
-/

namespace SvgPlot.Json

/-- A list or object that is not complete, what it holds newest first; `member` waits for the value of a key. -/
inductive Frame where
  | array (items : List Value)
  | object (members : List (Str × Value))
  | member (members : List (Str × Value)) (key : Str)

/-- What may come next. -/
inductive State where
  /-- a value -/
  | wantValue (stack : List Frame)
  /-- an item or the end, after an opening bracket -/
  | wantItem (stack : List Frame)
  /-- a key or the end, after an opening brace -/
  | wantMember (stack : List Frame)
  /-- a key, after a comma in an object -/
  | wantKey (done : List (Str × Value)) (stack : List Frame)
  /-- a colon, after a key -/
  | wantColon (done : List (Str × Value)) (key : Str) (stack : List Frame)
  /-- a comma or the end, after an item or member -/
  | wantMore (stack : List Frame)
  /-- nothing, after the whole value -/
  | finished (value : Value)

namespace State

/-- A complete value is put where it belongs. -/
def put (value : Value) : List Frame → Option State
  | [] => some (.finished value)
  | .array items :: stack => some (.wantMore (.array (value :: items) :: stack))
  | .member members key :: stack => some (.wantMore (.object ((key, value) :: members) :: stack))
  | .object _ :: _ => none

/-- The token that a value begins with. -/
def begin (stack : List Frame) : Token → Option State
  | .null => put .null stack
  | .bool b => put (.bool b) stack
  | .number n => put (.number n) stack
  | .string s => put (.string s) stack
  | .leftBracket => some (.wantItem stack)
  | .leftBrace => some (.wantMember stack)
  | _ => none

/-- One token is taken in. -/
def step : State → Token → Option State
  | .wantValue stack, token => begin stack token
  | .wantItem stack, .rightBracket => put (.array []) stack
  | .wantItem stack, token => begin (.array [] :: stack) token
  | .wantMember stack, .rightBrace => put (.object []) stack
  | .wantMember stack, .string key => some (.wantColon [] key stack)
  | .wantKey done stack, .string key => some (.wantColon done key stack)
  | .wantColon done key stack, .colon => some (.wantValue (.member done key :: stack))
  | .wantMore (.array items :: stack), .comma => some (.wantValue (.array items :: stack))
  | .wantMore (.array items :: stack), .rightBracket => put (.array items.reverse) stack
  | .wantMore (.object members :: stack), .comma => some (.wantKey members stack)
  | .wantMore (.object members :: stack), .rightBrace => put (.object members.reverse) stack
  | _, _ => none

/-- Tokens are taken in one after the other. -/
def run (state : State) (tokens : List Token) : Option State := tokens.foldlM step state

end State

/-- The value that tokens spell. -/
def Value.ofTokens? (tokens : List Token) : Option Value :=
  match (State.wantValue []).run tokens with
  | some (.finished value) => some value
  | _ => none

/-- The value that a text spells. -/
def Value.read? (text : String) : Option Value := (tokens? text.toList).bind Value.ofTokens?

end SvgPlot.Json
