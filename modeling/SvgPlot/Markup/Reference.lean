import SvgPlot.Text.Size

/-!
# References

A reference is written `&body;`. It stands for one character: one of the five predefined names, or a character number,
decimal or hexadecimal. `expand` replaces every reference of a text and fails at the first that stands for nothing.
-/

namespace SvgPlot.Markup

/-- Why a text after `&#` is no character number. -/
inductive NumberFault where
  | signed
  | empty
  | invalidDigit
  /-- it does not fit in 32 bits -/
  | tooLarge
  | zero
  /-- no character has this number -/
  | noCharacter (number : Nat)
deriving Repr, DecidableEq

def NumberFault.message : NumberFault → String
  | .signed => "unexpected number sign"
  | .empty => "cannot parse integer from empty string"
  | .invalidDigit => "invalid digit found in string"
  | .tooLarge => "number too large to fit in target type"
  | .zero => "0x0 character is not permitted in XML"
  | .noCharacter number => s!"`{number}` is not a valid codepoint"

/-- Why a reference stands for nothing. Positions are byte offsets in the text that is expanded. -/
inductive ReferenceFault where
  | unterminated (start size : Nat)
  | unknown (start stop : Nat) (body : String)
  | number (fault : NumberFault)
deriving Repr, DecidableEq

def ReferenceFault.message : ReferenceFault → String
  | .unterminated start size =>
    s!"Error while escaping character at range {start}..{size}: Cannot find ';' after '&'"
  | .unknown start stop body => s!"at {start}..{stop}: unrecognized entity `{body}`"
  | .number fault => s!"invalid character reference: {fault.message}"

/-- The value of a digit, which may be a letter from base 11 on. -/
def digit? (base : Nat) (c : Char) : Option Nat :=
  let value? :=
    if '0' ≤ c ∧ c ≤ '9' then some (c.toNat - '0'.toNat)
    else if 'a' ≤ c ∧ c ≤ 'z' then some (c.toNat - 'a'.toNat + 10)
    else if 'A' ≤ c ∧ c ≤ 'Z' then some (c.toNat - 'A'.toNat + 10)
    else none
  value?.filter fun value => value < base

/-- Reads digits after `number`; the first digit that is none, or that makes the number too large, decides. -/
def readDigits (base : Nat) : (number : Nat) → List Char → Except NumberFault Nat
  | number, [] => .ok number
  | number, c :: rest =>
    match digit? base c with
    | none => .error .invalidDigit
    | some digit =>
      let number := number * base + digit
      if 0xffffffff < number then .error .tooLarge else readDigits base number rest

def readUnsigned (base : Nat) : List Char → Except NumberFault Nat
  | [] => .error .empty
  | c :: rest => if c == '+' || c == '-' then .error .signed else readDigits base 0 (c :: rest)

/-- The character that a number after `&#` stands for; `x` marks hexadecimal digits. -/
def characterOfNumber (body : List Char) : Except NumberFault Char := do
  let number ←
    match body with
    | 'x' :: digits => readUnsigned 16 digits
    | digits => readUnsigned 10 digits
  if number = 0 then .error .zero
  else if number.isValidChar then .ok (Char.ofNat number)
  else .error (.noCharacter number)

def predefined? (name : String) : Option Char :=
  if name = "lt" then some '<'
  else if name = "gt" then some '>'
  else if name = "amp" then some '&'
  else if name = "apos" then some '\''
  else if name = "quot" then some '"'
  else none

/-- The character that a reference body stands for; `start` is its position. -/
def resolve (start : Nat) (body : List Char) : Except ReferenceFault Char :=
  match body with
  | '#' :: number => (characterOfNumber number).mapError .number
  | name =>
    match predefined? (String.ofList name) with
    | some c => .ok c
    | none => .error (.unknown start (start + Text.byteLength name) (String.ofList name))

/-! ## Cutting a text into references and the rest -/

inductive Piece where
  | plain (text : List Char)
  /-- `&body;` -/
  | reference (body : List Char)
  /-- an ampersand whose reference is never closed, with all that follows it -/
  | unterminated (text : List Char)
deriving Repr, DecidableEq

/-- The characters of a piece as they were written. -/
def Piece.text : Piece → List Char
  | .plain text => text
  | .reference body => '&' :: body ++ [';']
  | .unterminated text => '&' :: text

def plainPiece (seen : List Char) : List Piece := if seen.isEmpty then [] else [.plain seen.reverse]

/-- Cuts the rest of a text. `inBody` tells whether an ampersand has opened a reference, `seen` are the characters
since the last cut, last one first, and `holds` are the characters that a reference body may hold. -/
def cutFrom (holds : Char → Bool) : (inBody : Bool) → (seen : List Char) → List Char → List Piece
  | false, seen, [] => plainPiece seen
  | true, seen, [] => [.unterminated seen.reverse]
  | false, seen, c :: rest =>
    if c == '&' then plainPiece seen ++ cutFrom holds true [] rest
    else cutFrom holds false (c :: seen) rest
  | true, seen, c :: rest =>
    if c == ';' then .reference seen.reverse :: cutFrom holds false [] rest
    else if holds c then cutFrom holds true (c :: seen) rest
    else [.unterminated (seen.reverse ++ c :: rest)]

/-- Cuts a text into its references and the text between them. -/
def cut (holds : Char → Bool) (text : List Char) : List Piece := cutFrom holds false [] text

theorem flatMap_text_plainPiece (seen : List Char) : (plainPiece seen).flatMap Piece.text = seen.reverse := by
  unfold plainPiece
  split <;> simp_all [Piece.text]

theorem flatMap_text_cutFrom (holds : Char → Bool) (inBody : Bool) (seen text : List Char) :
    (cutFrom holds inBody seen text).flatMap Piece.text =
      (if inBody then ['&'] else []) ++ seen.reverse ++ text := by
  induction text generalizing inBody seen with
  | nil => cases inBody <;> simp [cutFrom, flatMap_text_plainPiece, Piece.text]
  | cons c rest ih =>
    cases inBody <;> simp only [cutFrom]
    · split <;> simp_all [flatMap_text_plainPiece]
    · split
      · simp_all [Piece.text]
      · split <;> simp_all [Piece.text]

/-- Cutting loses nothing. -/
theorem flatMap_text_cut (holds : Char → Bool) (text : List Char) :
    (cut holds text).flatMap Piece.text = text := by
  simp [cut, flatMap_text_cutFrom]

/-! ## Expanding -/

/-- Replaces the references in the pieces from byte `start` of a text of `size` bytes on. -/
def expandPieces (size : Nat) : (start : Nat) → List Piece → Except ReferenceFault (List Char)
  | _, [] => .ok []
  | start, .plain text :: rest => do
    let more ← expandPieces size (start + Text.byteLength text) rest
    return text ++ more
  | start, .reference body :: rest => do
    let c ← resolve (start + 1) body
    let more ← expandPieces size (start + 1 + Text.byteLength body + 1) rest
    return c :: more
  | start, .unterminated _ :: _ => .error (.unterminated start size)

/-- A text with its references replaced by the characters they stand for. The body of a reference has no ampersand in
it. -/
def expand (text : List Char) : Except ReferenceFault (List Char) :=
  expandPieces (Text.byteLength text) 0 (cut (· != '&') text)

end SvgPlot.Markup
