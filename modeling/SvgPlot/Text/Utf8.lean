/-!
# UTF-8

Bytes read as UTF-8 by an automaton that takes one byte at a time. A fault tells where the first character that cannot
be read begins, and how many bytes of it could still have been the start of a character.
-/

namespace SvgPlot.Text

inductive Utf8Fault where
  /-- the bytes from `index` on begin no character; `length` of them at most belong together -/
  | invalid (length index : Nat)
  /-- the text ends within the character that begins at `index` -/
  | incomplete (index : Nat)
deriving Repr, DecidableEq

def Utf8Fault.message : Utf8Fault → String
  | .invalid length index => s!"invalid utf-8 sequence of {length} bytes from index {index}"
  | .incomplete index => s!"incomplete utf-8 byte sequence from index {index}"

/-- A character of which the first `taken` bytes are read and `left` are to come, the next one between `low` and
`high`. -/
structure PartialChar where
  value : Nat
  low : Nat
  high : Nat
  left : Nat
  taken : Nat
deriving Repr, DecidableEq

/-- The state after the first byte of a character of more than one byte. The bounds for the second byte leave out what
has a shorter form, surrogates, and all above the last code point. -/
def PartialChar.ofLead? (b : Nat) : Option PartialChar :=
  if 0xc2 ≤ b ∧ b ≤ 0xdf then some ⟨b - 0xc0, 0x80, 0xbf, 1, 1⟩
  else if b = 0xe0 then some ⟨0, 0xa0, 0xbf, 2, 1⟩
  else if b = 0xed then some ⟨0xd, 0x80, 0x9f, 2, 1⟩
  else if 0xe1 ≤ b ∧ b ≤ 0xef then some ⟨b - 0xe0, 0x80, 0xbf, 2, 1⟩
  else if b = 0xf0 then some ⟨0, 0x90, 0xbf, 3, 1⟩
  else if 0xf1 ≤ b ∧ b ≤ 0xf3 then some ⟨b - 0xf0, 0x80, 0xbf, 3, 1⟩
  else if b = 0xf4 then some ⟨4, 0x80, 0x8f, 3, 1⟩
  else none

/-- Reads on at the character that begins at byte `index`; `seen` are the characters before, last one first. -/
def decodeFrom (index : Nat) (seen : List Char) : Option PartialChar → List UInt8 → Except Utf8Fault (List Char)
  | none, [] => .ok seen.reverse
  | some _, [] => .error (.incomplete index)
  | none, b :: rest =>
    let b := b.toNat
    if b < 0x80 then decodeFrom (index + 1) (Char.ofNat b :: seen) none rest
    else
      match PartialChar.ofLead? b with
      | none => .error (.invalid 1 index)
      | some p => decodeFrom index seen (some p) rest
  | some p, b :: rest =>
    let b := b.toNat
    if p.low ≤ b ∧ b ≤ p.high then
      let value := p.value * 64 + (b - 0x80)
      if p.left ≤ 1 then decodeFrom (index + p.taken + 1) (Char.ofNat value :: seen) none rest
      else decodeFrom index seen (some ⟨value, 0x80, 0xbf, p.left - 1, p.taken + 1⟩) rest
    else .error (.invalid p.taken index)

/-- The text that bytes spell in UTF-8. -/
def decodeUtf8 (bytes : List UInt8) : Except Utf8Fault String := (decodeFrom 0 [] none bytes).map String.ofList

/-- The bytes of a text in UTF-8. -/
def encodeUtf8 (s : String) : List UInt8 := s.toUTF8.toList

end SvgPlot.Text
