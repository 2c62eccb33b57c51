import SvgPlot.Source.PrefixCode

/-!
# Unpacking compressed data

Compressed data is a sequence of blocks: bytes as they are, or literals and copies of earlier output in a prefix code,
which is either fixed or described at the start of the block.
-/

namespace SvgPlot.Source

/-- What one step of a compressed block asks for. -/
inductive Item where
  | literal (byte : UInt8)
  | copy (length distance : Nat)
  | stop
deriving Repr, DecidableEq

/-- Base values and numbers of extra bits of the length symbols from 257 on. -/
def lengthBases : Array (Nat × Nat) :=
  #[(3, 0), (4, 0), (5, 0), (6, 0), (7, 0), (8, 0), (9, 0), (10, 0), (11, 1), (13, 1), (15, 1), (17, 1), (19, 2),
    (23, 2), (27, 2), (31, 2), (35, 3), (43, 3), (51, 3), (59, 3), (67, 4), (83, 4), (99, 4), (115, 4), (131, 5),
    (163, 5), (195, 5), (227, 5), (258, 0)]

/-- Base values and numbers of extra bits of the distance symbols. -/
def distanceBases : Array (Nat × Nat) :=
  #[(1, 0), (2, 0), (3, 0), (4, 0), (5, 1), (7, 1), (9, 2), (13, 2), (17, 3), (25, 3), (33, 4), (49, 4), (65, 5),
    (97, 5), (129, 6), (193, 6), (257, 7), (385, 7), (513, 8), (769, 8), (1025, 9), (1537, 9), (2049, 10), (3073, 10),
    (4097, 11), (6145, 11), (8193, 12), (12289, 12), (16385, 13), (24577, 13)]

/-- A base value with its extra bits. -/
def readExtra (bases : Array (Nat × Nat)) (symbol : Nat) (b : Bits) : Except InflateFault (Nat × Bits) :=
  match bases[symbol]? with
  | none => .error .corrupt
  | some (base, extra) =>
    match takeBits extra b with
    | .error fault => .error fault
    | .ok (more, b) => .ok (base + more, b)

def readItem (literals distances : PrefixCode) (b : Bits) : Except InflateFault (Item × Bits) :=
  match literals.decode b with
  | .error fault => .error fault
  | .ok (symbol, b) =>
    if symbol < 256 then .ok (.literal (UInt8.ofNat symbol), b)
    else if symbol = 256 then .ok (.stop, b)
    else
      match readExtra lengthBases (symbol - 257) b with
      | .error fault => .error fault
      | .ok (length, b) =>
        match distances.decode b with
        | .error fault => .error fault
        | .ok (symbol, b) =>
          match readExtra distanceBases symbol b with
          | .error fault => .error fault
          | .ok (distance, b) => .ok (.copy length distance, b)

theorem size_of_readExtra {bases : Array (Nat × Nat)} {symbol value : Nat} {b after : Bits}
    (h : readExtra bases symbol b = .ok (value, after)) : after.size ≤ b.size := by
  unfold readExtra at h
  split at h
  · cases h
  · split at h
    · cases h
    · rename_i htake
      have := size_of_takeBits htake
      cases h
      omega

theorem size_of_readItem {literals distances : PrefixCode} {item : Item} {b after : Bits}
    (h : readItem literals distances b = .ok (item, after)) : after.size < b.size := by
  unfold readItem at h
  split at h
  · cases h
  · rename_i hliteral
    have hliteral := PrefixCode.size_of_decode hliteral
    split at h
    · cases h
      exact hliteral
    · split at h
      · cases h
        exact hliteral
      · split at h
        · cases h
        · rename_i hlength
          have hlength := size_of_readExtra hlength
          split at h
          · cases h
          · rename_i hsymbol
            have hsymbol := PrefixCode.size_of_decode hsymbol
            split at h
            · cases h
            · rename_i hdistance
              have hdistance := size_of_readExtra hdistance
              cases h
              omega

/-- Copies `length` bytes that lie `distance` back, one at a time, since they may reach into the copy itself. What lies
before the start of the output is zero. -/
def copyBack (out : ByteArray) (distance : Nat) : (length : Nat) → ByteArray
  | 0 => out
  | length + 1 =>
    let byte := if distance ≤ out.size then out[out.size - distance]?.getD 0 else 0
    copyBack (out.push byte) distance length

/-- Unpacks items up to the end of the block. -/
def inflateItems (literals distances : PrefixCode) (out : ByteArray) (b : Bits) :
    Except InflateFault (ByteArray × Bits) :=
  match h : readItem literals distances b with
  | .error fault => .error fault
  | .ok (item, after) =>
    have : after.size < b.size := size_of_readItem h
    match item with
    | .stop => .ok (out, after)
    | .literal byte => inflateItems literals distances (out.push byte) after
    | .copy length distance => inflateItems literals distances (copyBack out distance length) after
termination_by b.size

theorem size_of_inflateItems {literals distances : PrefixCode} {out result : ByteArray} {b after : Bits}
    (h : inflateItems literals distances out b = .ok (result, after)) : after.size < b.size := by
  fun_induction inflateItems literals distances out b with
  | case1 => cases h
  | case2 => cases h; assumption
  | case3 _ _ _ _ _ _ hlt ih => exact Nat.lt_trans (ih h) hlt
  | case4 _ _ _ _ _ _ _ hlt ih => exact Nat.lt_trans (ih h) hlt

/-! ## Blocks -/

def fixedLiterals : PrefixCode :=
  PrefixCode.ofLengths
    (List.replicate 144 8 ++ List.replicate 112 9 ++ List.replicate 24 7 ++ List.replicate 8 8)

def fixedDistances : PrefixCode := PrefixCode.ofLengths (List.replicate 32 5)

/-- The order in which the lengths of the words for code lengths are given. -/
def lengthOrder : List Nat := [16, 17, 18, 0, 8, 7, 9, 6, 10, 5, 11, 4, 12, 3, 13, 2, 14, 1, 15]

/-- `n` numbers of three bits. -/
def readTriples : (n : Nat) → Bits → Except InflateFault (List Nat × Bits)
  | 0, b => .ok ([], b)
  | n + 1, b =>
    match takeBits 3 b with
    | .error fault => .error fault
    | .ok (value, b) =>
      match readTriples n b with
      | .error fault => .error fault
      | .ok (rest, b) => .ok (value :: rest, b)

/-- The code for code lengths, from the lengths that are given; the others have no word. -/
def codeOfTriples (triples : List Nat) : PrefixCode :=
  PrefixCode.ofLengths ((List.range 19).map fun symbol =>
    ((lengthOrder.zip triples).find? fun entry => entry.1 == symbol).elim 0 Prod.snd)

/-- One or more code lengths: a length itself, or a run of the one before or of zeros. -/
def readLengthRun (code : PrefixCode) (before : Option Nat) (b : Bits) : Except InflateFault ((Nat × Nat) × Bits) :=
  match code.decode b with
  | .error fault => .error fault
  | .ok (symbol, b) =>
    if symbol < 16 then .ok ((symbol, 1), b)
    else
      let (value?, extra, base) :=
        if symbol = 16 then (before, 2, 3) else if symbol = 17 then (some 0, 3, 3) else (some 0, 7, 11)
      match value? with
      | none => .error .corrupt
      | some value =>
        match takeBits extra b with
        | .error fault => .error fault
        | .ok (more, b) => .ok ((value, base + more), b)

theorem size_of_readLengthRun {code : PrefixCode} {before : Option Nat} {run : Nat × Nat} {b after : Bits}
    (h : readLengthRun code before b = .ok (run, after)) : after.size < b.size := by
  unfold readLengthRun at h
  split at h
  · cases h
  · rename_i hdecode
    have hdecode := PrefixCode.size_of_decode hdecode
    split at h
    · cases h
      exact hdecode
    · simp only at h
      split at h
      · cases h
      · split at h
        · cases h
        · rename_i htake
          have := size_of_takeBits htake
          cases h
          omega

/-- Code lengths until there are `total`; more than that is a fault. `seen` are those so far, last one first. -/
def readLengths (code : PrefixCode) (total : Nat) (seen : List Nat) (b : Bits) :
    Except InflateFault (List Nat × Bits) :=
  if seen.length = total then .ok (seen.reverse, b)
  else if total < seen.length then .error .corrupt
  else
    match h : readLengthRun code seen.head? b with
    | .error fault => .error fault
    | .ok ((value, count), after) =>
      have : after.size < b.size := size_of_readLengthRun h
      readLengths code total (List.replicate count value ++ seen) after
termination_by b.size

theorem size_of_readLengths {code : PrefixCode} {total : Nat} {seen lengths : List Nat} {b after : Bits}
    (h : readLengths code total seen b = .ok (lengths, after)) : after.size ≤ b.size := by
  fun_induction readLengths code total seen b with
  | case1 => cases h; exact Nat.le_refl _
  | case2 => cases h
  | case3 => cases h
  | case4 _ _ _ _ _ _ _ _ hlt ih => exact Nat.le_of_lt (Nat.lt_of_le_of_lt (ih h) hlt)

theorem size_of_readTriples {n : Nat} {triples : List Nat} {b after : Bits}
    (h : readTriples n b = .ok (triples, after)) : after.size ≤ b.size := by
  induction n generalizing triples b after with
  | zero => cases h; exact Nat.le_refl _
  | succ n ih =>
    simp only [readTriples] at h
    split at h
    · cases h
    · rename_i htake
      have := size_of_takeBits htake
      split at h
      · cases h
      · rename_i hrest
        have := ih hrest
        cases h
        omega

/-- The two codes of a block that describes its own, after the numbers of their lengths. -/
def readCodes (literals distances triples : Nat) (b : Bits) :
    Except InflateFault ((PrefixCode × PrefixCode) × Bits) :=
  if 286 < literals ∨ 30 < distances then .error .corrupt
  else
    match readTriples triples b with
    | .error fault => .error fault
    | .ok (given, b) =>
      let code := codeOfTriples given
      if !code.isComplete then .error .corrupt
      else
        match readLengths code (literals + distances) [] b with
        | .error fault => .error fault
        | .ok (lengths, b) =>
          let first := PrefixCode.ofLengths (lengths.take literals)
          let second := PrefixCode.ofLengths (lengths.drop literals)
          if first.isUsable && second.isUsable then .ok ((first, second), b) else .error .corrupt

theorem size_of_readCodes {literals distances triples : Nat} {codes : PrefixCode × PrefixCode} {b after : Bits}
    (h : readCodes literals distances triples b = .ok (codes, after)) : after.size ≤ b.size := by
  unfold readCodes at h
  split at h
  · cases h
  · split at h
    · cases h
    · rename_i htriples
      have := size_of_readTriples htriples
      simp only at h
      split at h
      · cases h
      · split at h
        · cases h
        · rename_i hlengths
          have := size_of_readLengths hlengths
          split at h
          · cases h
            omega
          · cases h

/-- A block that describes its own codes. -/
def inflateDescribed (out : ByteArray) (b : Bits) : Except InflateFault (ByteArray × Bits) :=
  match takeBits 14 b with
  | .error fault => .error fault
  | .ok (sizes, b) =>
    match readCodes (sizes % 32 + 257) (sizes / 32 % 32 + 1) (sizes / 1024 + 4) b with
    | .error fault => .error fault
    | .ok ((literals, distances), b) => inflateItems literals distances out b

/-- A block of bytes as they are: their number, its complement, and the bytes. -/
def inflateStored (out : ByteArray) (b : Bits) : Except InflateFault (ByteArray × Bits) :=
  match takeBits 32 b.align with
  | .error fault => .error fault
  | .ok (sizes, b) =>
    let length := sizes % 65536
    if length + sizes / 65536 ≠ 65535 then .error .corrupt
    else
      let bytes := b.toBytes
      if bytes.length < length then .error .incomplete
      else .ok ((bytes.take length).foldl ByteArray.push out, Bits.of (bytes.drop length))

/-- A block of one of the four kinds, the last of which is none. -/
def inflateBlock (kind : Nat) (out : ByteArray) (b : Bits) : Except InflateFault (ByteArray × Bits) :=
  if kind = 0 then inflateStored out b
  else if kind = 1 then inflateItems fixedLiterals fixedDistances out b
  else if kind = 2 then inflateDescribed out b
  else .error .corrupt

theorem size_of_inflateDescribed {out result : ByteArray} {b after : Bits}
    (h : inflateDescribed out b = .ok (result, after)) : after.size ≤ b.size := by
  unfold inflateDescribed at h
  split at h
  · cases h
  · rename_i htake
    have := size_of_takeBits htake
    split at h
    · cases h
    · rename_i hcodes
      have := size_of_readCodes hcodes
      have := size_of_inflateItems h
      omega

theorem length_toBytes_le (b : Bits) : 8 * b.toBytes.length ≤ b.size := by
  simp only [Bits.toBytes, Bits.size, List.length_append, List.length_map, List.length_range]
  omega

theorem size_of_inflateStored {out result : ByteArray} {b after : Bits}
    (h : inflateStored out b = .ok (result, after)) : after.size ≤ b.size := by
  have halign := b.size_align_le
  unfold inflateStored at h
  split at h
  · cases h
  · rename_i rest htake
    have htake := size_of_takeBits htake
    have hbytes := length_toBytes_le rest
    simp only at h
    split at h
    · cases h
    · split at h
      · cases h
      · cases h
        simp only [Bits.of, Bits.size, List.length_drop] at htake hbytes halign ⊢
        omega

theorem size_of_inflateBlock {kind : Nat} {out result : ByteArray} {b after : Bits}
    (h : inflateBlock kind out b = .ok (result, after)) : after.size ≤ b.size := by
  unfold inflateBlock at h
  split at h
  · exact size_of_inflateStored h
  · split at h
    · exact Nat.le_of_lt (size_of_inflateItems h)
    · split at h
      · exact size_of_inflateDescribed h
      · cases h

/-- Unpacks blocks up to the last one. The result is the output and the bytes after the compressed data. -/
def inflateBlocks (out : ByteArray) (b : Bits) : Except InflateFault (ByteArray × List UInt8) :=
  match hheader : takeBits 3 b with
  | .error fault => .error fault
  | .ok (header, rest) =>
    match hblock : inflateBlock (header / 2) out rest with
    | .error fault => .error fault
    | .ok (out, after) =>
      if header % 2 = 1 then .ok (out, after.align.toBytes)
      else
        have : after.size < b.size := by
          have := size_of_takeBits hheader
          have := size_of_inflateBlock hblock
          omega
        inflateBlocks out after
termination_by b.size

/-- Unpacks the compressed data at the start of some bytes. -/
def inflate (bytes : List UInt8) : Except InflateFault (List UInt8 × List UInt8) :=
  (inflateBlocks ByteArray.empty (Bits.of bytes)).map fun (out, rest) => (out.toList, rest)

end SvgPlot.Source
