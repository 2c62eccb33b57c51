import SvgPlot.Source.Bits

/-!
# Canonical prefix codes

A code given by the lengths of its words: shorter words come first, and words of one length are in the order of their
symbols. Decoding a symbol takes at least one bit (`size_of_decode`).
-/

namespace SvgPlot.Source

/-- Why compressed data cannot be unpacked. -/
inductive InflateFault where
  /-- the data ends too early -/
  | incomplete
  | corrupt
deriving Repr, DecidableEq

def takeBits (n : Nat) (b : Bits) : Except InflateFault (Nat × Bits) :=
  match b.take? n with
  | none => .error .incomplete
  | some result => .ok result

theorem size_of_takeBits {n value : Nat} {b after : Bits} (h : takeBits n b = .ok (value, after)) :
    after.size + n = b.size := by
  unfold takeBits at h
  split at h
  · cases h
  · rename_i htake
    cases h
    exact Bits.size_of_take? htake

/-- The number of words of each length from 1 to 15, and the symbols in the order of their words. -/
structure PrefixCode where
  counts : List Nat
  symbols : Array Nat
deriving Repr

namespace PrefixCode

/-- The code whose word for symbol `i` has the `i`-th of these lengths; length 0 means no word. -/
def ofLengths (lengths : List Nat) : PrefixCode :=
  let numbered := lengths.zipIdx
  let ofLength (n : Nat) : List Nat := (numbered.filter fun entry => entry.1 == n).map Prod.snd
  let groups := (List.range 15).map fun n => ofLength (n + 1)
  ⟨groups.map List.length, groups.flatten.toArray⟩

/-- The share of the code space that the words fill, in units of one word of 15 bits. -/
def filled (code : PrefixCode) : Nat := code.counts.foldl (fun total count => 2 * total + count) 0

/-- Whether every bit sequence starts with exactly one word. -/
def isComplete (code : PrefixCode) : Bool := code.filled == 0x8000

/-- A code that is not complete may have one word at most, and that of one bit. -/
def isUsable (code : PrefixCode) : Bool :=
  code.isComplete || code.symbols.size ≤ 1 && code.counts.head? == some code.symbols.size

/-- Reads a word of the lengths that `counts` are for. `first` is the first word of the current length, `index` the
number of its symbol, `word` the bits so far with room for one more. Once no longer words are left, bits that are no
word are a fault. -/
def decodeFrom (symbols : Array Nat) : (counts : List Nat) → (word first index : Nat) → Bits →
    Except InflateFault (Nat × Bits)
  | [], _, _, _, _ => .error .corrupt
  | count :: counts, word, first, index, b =>
    match takeBits 1 b with
    | .error fault => .error fault
    | .ok (bit, b) =>
      let word := word + bit
      if word < first + count then .ok (symbols[index + (word - first)]?.getD 0, b)
      else if symbols.size ≤ index + count then .error .corrupt
      else decodeFrom symbols counts (2 * word) (2 * (first + count)) (index + count) b

def decode (code : PrefixCode) (b : Bits) : Except InflateFault (Nat × Bits) :=
  decodeFrom code.symbols code.counts 0 0 0 b

theorem size_of_decodeFrom {symbols : Array Nat} {counts : List Nat} {word first index symbol : Nat} {b after : Bits}
    (h : decodeFrom symbols counts word first index b = .ok (symbol, after)) : after.size < b.size := by
  induction counts generalizing word first index b with
  | nil => simp [decodeFrom] at h
  | cons count counts ih =>
    simp only [decodeFrom] at h
    split at h
    · cases h
    · rename_i htake
      have hsize := size_of_takeBits htake
      split at h
      · cases h
        omega
      · split at h
        · cases h
        · have := ih h
          omega

theorem size_of_decode {code : PrefixCode} {symbol : Nat} {b after : Bits} (h : code.decode b = .ok (symbol, after)) :
    after.size < b.size :=
  size_of_decodeFrom h

end PrefixCode

end SvgPlot.Source
