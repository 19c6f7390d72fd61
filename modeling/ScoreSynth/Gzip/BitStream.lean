/-!
# Streams of bits

Compressed data is read bit by bit, the lowest bit of an octet first.  Every read
hands back what is left of the stream together with the fact that it is shorter,
which is why the loops over a stream end.
-/

namespace ScoreSynth.Gzip

/-- Why compressed data cannot be read. -/
inductive Fault where
  /-- The data ends too early. -/
  | truncated
  /-- The data breaks a rule of the format. -/
  | corrupt
  deriving DecidableEq, Repr

/-- Bits still to be read. -/
structure BitStream where
  /-- What is left of the octet that has been begun. -/
  pending : List Bool
  octets : List UInt8

namespace BitStream

/-- The number of bits left. -/
def size (stream : BitStream) : Nat :=
  stream.pending.length + 8 * stream.octets.length

/-- The bits of an octet, lowest first. -/
def bitsOf (octet : UInt8) : List Bool :=
  (List.range 8).map octet.toNat.testBit

/-- A stream over some octets. -/
def ofOctets (octets : List UInt8) : BitStream :=
  ⟨[], octets⟩

/-- What is left of a stream after at least one bit. -/
abbrev After (stream : BitStream) : Type :=
  { rest : BitStream // rest.size < stream.size }

/-- What is left of a stream when no more than a number of bits can be. -/
abbrev Within (bound : Nat) : Type :=
  { rest : BitStream // rest.size ≤ bound }

/-- A stream of which nothing has been read. -/
def unread (stream : BitStream) : Within stream.size :=
  ⟨stream, Nat.le_refl _⟩

/-- Read one bit. -/
def next : (stream : BitStream) → Except Fault (Bool × After stream)
  | ⟨bit :: pending, octets⟩ =>
      .ok (bit, ⟨⟨pending, octets⟩, by simp [size]⟩)
  | ⟨[], octet :: octets⟩ =>
      .ok (octet.toNat.testBit 0,
        ⟨⟨(bitsOf octet).tail, octets⟩, by simp [size, bitsOf]; omega⟩)
  | ⟨[], []⟩ => .error .truncated

/-- Read a number of so many bits, lowest first. -/
def take : (count : Nat) → (stream : BitStream) →
    Except Fault (Nat × Within stream.size)
  | 0, stream => .ok (0, stream.unread)
  | count + 1, stream => do
      let (bit, rest) ← stream.next
      let (upper, rest') ← take count rest.1
      return (bit.toNat + 2 * upper,
        ⟨rest'.1, Nat.le_trans rest'.2 (Nat.le_of_lt rest.2)⟩)

end BitStream

end ScoreSynth.Gzip
