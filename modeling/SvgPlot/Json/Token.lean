import SvgPlot.Json.Number

/-!
# Tokens of JSON

JSON text cut into brackets, commas, colons, words, numbers and strings. Every token takes at least one character
(`length_of_next?`).
-/

namespace SvgPlot.Json

inductive Token where
  | leftBracket
  | rightBracket
  | leftBrace
  | rightBrace
  | comma
  | colon
  | null
  | bool (b : Bool)
  | number (n : Decimal.Numeral)
  | string (s : Str)
deriving Repr, DecidableEq

/-! ## Strings -/

/-- What one place in a string spells: a character, or half of a surrogate pair. -/
inductive Part where
  | char (c : Char)
  | half (n : Nat)
deriving Repr, DecidableEq

def isHigh (n : Nat) : Bool := 0xd800 ≤ n && n ≤ 0xdbff

def isLow (n : Nat) : Bool := 0xdc00 ≤ n && n ≤ 0xdfff

/-- The part that a number after `\u` stands for. -/
def Part.ofNumber (n : Nat) : Part := if isHigh n || isLow n then .half n else .char (Char.ofNat n)

/-- The characters of the parts, halves joined in pairs; `seen` are those before, last one first. -/
def joinParts (seen : List Char) : List Part → Str
  | [] => some (String.ofList seen.reverse)
  | .char c :: rest => joinParts (c :: seen) rest
  | .half high :: .half low :: rest =>
    if isHigh high && isLow low then
      joinParts (Char.ofNat (0x10000 + (high - 0xd800) * 0x400 + (low - 0xdc00)) :: seen) rest
    else none
  | .half _ :: _ => none

def hexDigit? (c : Char) : Option Nat :=
  if '0' ≤ c ∧ c ≤ '9' then some (c.toNat - '0'.toNat)
  else if 'a' ≤ c ∧ c ≤ 'f' then some (c.toNat - 'a'.toNat + 10)
  else if 'A' ≤ c ∧ c ≤ 'F' then some (c.toNat - 'A'.toNat + 10)
  else none

/-- The number of four hexadecimal digits. -/
def hexFour? (a b c d : Char) : Option Nat := do
  return (((← hexDigit? a) * 16 + (← hexDigit? b)) * 16 + (← hexDigit? c)) * 16 + (← hexDigit? d)

/-- The character after a backslash, other than `u`. -/
def unescape? : Char → Option Char
  | '"' => some '"'
  | '\\' => some '\\'
  | '/' => some '/'
  | 'b' => some '\x08'
  | 'f' => some '\x0c'
  | 'n' => some '\n'
  | 'r' => some '\r'
  | 't' => some '\t'
  | _ => none

/-- The parts of a string up to its closing quote, and the text after it; `seen` are those before, last one first. -/
def readParts? (seen : List Part) : List Char → Option (List Part × List Char)
  | [] => none
  | '"' :: rest => some (seen.reverse, rest)
  | '\\' :: 'u' :: a :: b :: c :: d :: rest =>
    match hexFour? a b c d with
    | none => none
    | some n => readParts? (.ofNumber n :: seen) rest
  | '\\' :: c :: rest =>
    match unescape? c with
    | none => none
    | some c => readParts? (.char c :: seen) rest
  | c :: rest => if c.toNat < 0x20 || c == '\\' then none else readParts? (.char c :: seen) rest

theorem length_of_readParts? {seen parts : List Part} {text after : List Char}
    (h : readParts? seen text = some (parts, after)) : after.length < text.length := by
  fun_induction readParts? seen text with
  | case1 => cases h
  | case2 => cases h; simp
  | case3 => cases h
  | case4 _ _ _ _ _ _ _ _ ih => have := ih h; simp only [List.length_cons]; omega
  | case5 => cases h
  | case6 _ _ _ _ _ _ ih => have := ih h; simp only [List.length_cons]; omega
  | case7 => cases h
  | case8 _ _ _ _ _ _ _ ih => have := ih h; simp only [List.length_cons]; omega

/-! ## Tokens -/

/-- The number at the start of a text. -/
def readNumber? (text : List Char) : Option (Token × List Char) :=
  match Decimal.Numeral.read? text with
  | some (n, after) => if isNumber n then some (.number n, after) else none
  | none => none

/-- A word after its first letter. -/
def readWord? (word : List Char) (token : Token) (rest : List Char) : Option (Token × List Char) :=
  if word.isPrefixOf rest then some (token, rest.drop word.length) else none

/-- The string after its opening quote. -/
def readString? (rest : List Char) : Option (Token × List Char) :=
  match readParts? [] rest with
  | some (parts, after) => some (.string (joinParts [] parts), after)
  | none => none

/-- The token at the start of a text with this first character. -/
def Token.next? (c : Char) (rest : List Char) : Option (Token × List Char) :=
  match c with
  | '[' => some (.leftBracket, rest)
  | ']' => some (.rightBracket, rest)
  | '\x7b' => some (.leftBrace, rest)
  | '\x7d' => some (.rightBrace, rest)
  | ',' => some (.comma, rest)
  | ':' => some (.colon, rest)
  | '"' => readString? rest
  | 'n' => readWord? "ull".toList .null rest
  | 't' => readWord? "rue".toList (.bool true) rest
  | 'f' => readWord? "alse".toList (.bool false) rest
  | c => if c == '-' || c.isDigit then readNumber? (c :: rest) else none

theorem length_of_readNumber? {text after : List Char} {token : Token}
    (h : readNumber? text = some (token, after)) : after.length < text.length := by
  unfold readNumber? at h
  split at h
  · rename_i n rest hread
    split at h
    · cases h
      have htext := Decimal.Numeral.text_append_of_read? hread
      have hne := List.length_pos_iff.2 (Decimal.Numeral.text_ne_nil_of_read? hread)
      rw [← htext, List.length_append]
      omega
    · cases h
  · cases h

theorem length_of_readWord? {word rest after : List Char} {token result : Token}
    (h : readWord? word token rest = some (result, after)) : after.length ≤ rest.length := by
  unfold readWord? at h
  split at h
  · cases h
    simp
  · cases h

theorem length_of_readString? {rest after : List Char} {token : Token}
    (h : readString? rest = some (token, after)) : after.length < rest.length := by
  unfold readString? at h
  split at h
  · rename_i hparts
    cases h
    exact length_of_readParts? hparts
  · cases h

theorem length_of_next? {c : Char} {rest after : List Char} {token : Token}
    (h : Token.next? c rest = some (token, after)) : after.length ≤ rest.length := by
  unfold Token.next? at h
  split at h
  case h_7 => exact Nat.le_of_lt (length_of_readString? h)
  case h_8 => exact length_of_readWord? h
  case h_9 => exact length_of_readWord? h
  case h_10 => exact length_of_readWord? h
  case h_11 =>
    split at h
    · have := length_of_readNumber? h
      simp only [List.length_cons] at this
      omega
    · cases h
  all_goals
    cases h
    exact Nat.le_refl _

/-- The blanks of JSON. -/
def isSpace (c : Char) : Bool := c == ' ' || c == '\n' || c == '\t' || c == '\r'

/-- The tokens of a text; `seen` are those before, last one first. -/
def tokensFrom (seen : List Token) : List Char → Option (List Token)
  | [] => some seen.reverse
  | c :: rest =>
    if isSpace c then tokensFrom seen rest
    else
      match h : Token.next? c rest with
      | none => none
      | some (token, after) =>
        have : after.length ≤ rest.length := length_of_next? h
        tokensFrom (token :: seen) after
termination_by text => text.length

def tokens? (text : List Char) : Option (List Token) := tokensFrom [] text

end SvgPlot.Json
