import SvgPlot.Source.Checksum
import SvgPlot.Source.Inflate

/-!
# Gzip members

A gzip member is a header, compressed data, and a trailer with the checksum and the length of what was compressed. Only
the first member of some bytes is read; what follows it does not matter.
-/

namespace SvgPlot.Source

inductive GzipFault where
  | invalidHeader
  /-- a file name or comment of more than 65535 bytes -/
  | longField
  /-- the bytes end in the header or the trailer -/
  | unexpectedEnd
  | data (fault : InflateFault)
  /-- a checksum or length that does not fit -/
  | mismatch
deriving Repr, DecidableEq

def GzipFault.message : GzipFault → String
  | .invalidHeader => "invalid gzip header"
  | .longField => "gzip header field too long"
  | .unexpectedEnd => "unexpected end of file"
  | .data .incomplete => "incomplete deflate stream"
  | .data .corrupt => "corrupt deflate stream"
  | .mismatch => "corrupt gzip stream does not have a matching checksum"

/-- The two bytes that a gzip member starts with. -/
def gzipMagic : List UInt8 := [0x1f, 0x8b]

/-- The number that bytes spell, lowest byte first. -/
def littleEndian (bytes : List UInt8) : Nat := bytes.foldr (fun b n => b.toNat + 256 * n) 0

/-- The first `n` bytes and the rest. -/
def takeBytes (n : Nat) (bytes : List UInt8) : Except GzipFault (List UInt8 × List UInt8) :=
  let taken := bytes.take n
  if taken.length < n then .error .unexpectedEnd else .ok (taken, bytes.drop n)

/-- Leaves out a text that a zero byte ends. -/
def skipText (bytes : List UInt8) : Except GzipFault (List UInt8) :=
  let text := bytes.takeWhile (· != 0)
  if 65535 < text.length then .error .longField
  else
    match bytes.drop text.length with
    | [] => .error .unexpectedEnd
    | _ :: rest => .ok rest

/-- Leaves out a field that starts with its length. -/
def skipExtra (bytes : List UInt8) : Except GzipFault (List UInt8) := do
  let (size, rest) ← takeBytes 2 bytes
  let (_, rest) ← takeBytes (littleEndian size) rest
  return rest

/-- Whether a flag of the header is set. -/
def hasFlag (flags : UInt8) (bit : Nat) : Bool := flags.toNat.testBit bit

/-- Leaves out a part of the header that a flag announces. -/
def skipIf (announced : Bool) (skip : List UInt8 → Except GzipFault (List UInt8)) (bytes : List UInt8) :
    Except GzipFault (List UInt8) :=
  if announced then skip bytes else .ok bytes

/-- The checksum of the header, if it has one, is the lower half of the checksum of all before it. -/
def checkHeader (whole bytes : List UInt8) : Except GzipFault (List UInt8) := do
  let header := whole.take (whole.length - bytes.length)
  let (given, rest) ← takeBytes 2 bytes
  if littleEndian given = (checksum header).toNat % 65536 then .ok rest else .error .mismatch

/-- The bytes after the header. Of the fixed part only the method and the flags count. -/
def skipHeader (bytes : List UInt8) : Except GzipFault (List UInt8) := do
  let (fixed, rest) ← takeBytes 10 bytes
  let method := fixed.getD 2 0
  let flags := fixed.getD 3 0
  if fixed.take 2 ≠ gzipMagic ∨ method ≠ 8 ∨ 32 ≤ flags then .error .invalidHeader
  else
    let rest ← skipIf (hasFlag flags 2) skipExtra rest
    let rest ← skipIf (hasFlag flags 3) skipText rest
    let rest ← skipIf (hasFlag flags 4) skipText rest
    skipIf (hasFlag flags 1) (checkHeader bytes) rest

/-- The content of the first member. -/
def gunzip (bytes : List UInt8) : Except GzipFault (List UInt8) := do
  let packed ← skipHeader bytes
  let (content, rest) ← (inflate packed).mapError .data
  let (trailer, _) ← takeBytes 8 rest
  if littleEndian (trailer.take 4) = (checksum content).toNat ∧
      littleEndian (trailer.drop 4) = content.length % 0x100000000 then .ok content
  else .error .mismatch

end SvgPlot.Source
