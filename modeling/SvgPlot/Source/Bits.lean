/-!
# Bit streams

Bytes read as a stream of bits, the lowest bit of a byte first. Taking `n` bits leaves `n` fewer (`size_of_take?`),
which is what bounds the work of everything that reads from the stream.
-/

namespace SvgPlot.Source

/-- `count` bits that were taken off the bytes, the next one lowest in `held`, and the bytes after them. -/
structure Bits where
  held : Nat
  count : Nat
  bytes : List UInt8
deriving Repr, DecidableEq

namespace Bits

def of (bytes : List UInt8) : Bits := ⟨0, 0, bytes⟩

/-- The number of bits left. -/
def size (b : Bits) : Nat := b.count + 8 * b.bytes.length

/-- Takes bytes until at least `n` bits are held. -/
def fill? (n : Nat) (held count : Nat) : List UInt8 → Option Bits
  | [] => if n ≤ count then some ⟨held, count, []⟩ else none
  | b :: rest =>
    if n ≤ count then some ⟨held, count, b :: rest⟩
    else fill? n (held + b.toNat <<< count) (count + 8) rest

/-- The next `n` bits as a number, the first one lowest. -/
def take? (n : Nat) (b : Bits) : Option (Nat × Bits) :=
  (fill? n b.held b.count b.bytes).map fun b => (b.held % (1 <<< n), ⟨b.held >>> n, b.count - n, b.bytes⟩)

/-- The stream without what is left of a byte that has been begun. -/
def align (b : Bits) : Bits := ⟨b.held >>> (b.count % 8), b.count - b.count % 8, b.bytes⟩

/-- The bytes that have not been begun; what is held is a number of whole bytes after `align`. -/
def toBytes (b : Bits) : List UInt8 :=
  (List.range (b.count / 8)).map (fun i => UInt8.ofNat (b.held >>> (8 * i))) ++ b.bytes

theorem size_of_fill? {n held count : Nat} {bytes : List UInt8} {b : Bits} (h : fill? n held count bytes = some b) :
    n ≤ b.count ∧ b.size = count + 8 * bytes.length := by
  induction bytes generalizing held count with
  | nil =>
    simp only [fill?] at h
    split at h
    · cases h
      exact ⟨by assumption, rfl⟩
    · cases h
  | cons x rest ih =>
    simp only [fill?] at h
    split at h
    · cases h
      exact ⟨by assumption, rfl⟩
    · obtain ⟨hn, hsize⟩ := ih h
      exact ⟨hn, by simp only [hsize, List.length_cons]; omega⟩

theorem size_of_take? {n value : Nat} {b after : Bits} (h : b.take? n = some (value, after)) :
    after.size + n = b.size := by
  unfold take? at h
  cases hfill : fill? n b.held b.count b.bytes with
  | none => rw [hfill] at h; cases h
  | some full =>
    rw [hfill] at h
    obtain ⟨hn, hsize⟩ := size_of_fill? hfill
    cases h
    simp only [size] at hsize ⊢
    omega

theorem size_align_le (b : Bits) : b.align.size ≤ b.size := by
  simp only [align, size]
  omega

end Bits

end SvgPlot.Source
