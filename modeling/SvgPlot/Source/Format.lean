import SvgPlot.Source.Gzip
import SvgPlot.Text.Utf8

/-!
# Input formats

Input is plain markup or markup in a gzip member. The format is told from the first bytes, and plain markup must have an
opening `<svg` near its start. `readMarkup` turns input of either format into text.
-/

namespace SvgPlot.Source

inductive Format where
  | plain
  | compressed
deriving Repr, DecidableEq

/-- Why input gives no markup text. -/
inductive SourceError where
  | unknownFormat
  | packed (fault : GzipFault)
  | encoding (fault : Text.Utf8Fault)
deriving Repr, DecidableEq

/-- A byte order mark in UTF-8. -/
def byteOrderMark : List UInt8 := [0xef, 0xbb, 0xbf]

/-- The blanks that may come before markup. -/
def isBlankByte (b : UInt8) : Bool := b == 0x20 || b == 0x09 || b == 0x0a || b == 0x0c || b == 0x0d

/-- The bytes without the byte order mark they may start with. -/
def withoutMark (bytes : List UInt8) : List UInt8 :=
  if byteOrderMark.isPrefixOf bytes then bytes.drop byteOrderMark.length else bytes

/-- How far the opening of the root element is looked for. -/
def sniffLength : Nat := 4096

/-- The bytes of `<svg`. -/
def opening : List UInt8 := [0x3c, 0x73, 0x76, 0x67]

/-- Whether some bytes have others in a row somewhere in them. -/
def hasInfix (part : List UInt8) : List UInt8 → Bool
  | [] => part.isEmpty
  | b :: rest => part.isPrefixOf (b :: rest) || hasInfix part rest

/-- Whether bytes begin like plain markup. -/
def looksPlain (bytes : List UInt8) : Bool :=
  let text := (withoutMark bytes).dropWhile isBlankByte
  text.head? == some 0x3c && hasInfix opening (text.take sniffLength)

def Format.of? (bytes : List UInt8) : Option Format :=
  if gzipMagic.isPrefixOf bytes then some .compressed
  else if looksPlain bytes then some .plain
  else none

/-- The format of a file, of which only the start is looked at. -/
def Format.ofFile? (bytes : List UInt8) : Option Format := Format.of? (bytes.take sniffLength)

/-- The bytes of the markup, unpacked if need be. What was packed must have a known format, whichever it is. -/
def unpack (bytes : List UInt8) : Except SourceError (List UInt8) :=
  match Format.of? bytes with
  | none => .error .unknownFormat
  | some .plain => .ok bytes
  | some .compressed =>
    match gunzip bytes with
    | .error fault => .error (.packed fault)
    | .ok content => if (Format.of? content).isSome then .ok content else .error .unknownFormat

/-- A text without the byte order mark it may start with. -/
def dropMark (s : String) : String :=
  match s.toList with
  | '\ufeff' :: rest => String.ofList rest
  | _ => s

/-- The markup text in some bytes. -/
def readMarkup (bytes : List UInt8) : Except SourceError String := do
  let content ← unpack bytes
  match Text.decodeUtf8 content with
  | .ok text => return dropMark text
  | .error fault => .error (.encoding fault)

end SvgPlot.Source
