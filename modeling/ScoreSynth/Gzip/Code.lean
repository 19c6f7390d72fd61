import ScoreSynth.Gzip.BitStream

/-!
# Codes of variable length

A code gives each symbol a word of up to fifteen bits, and no word begins another.
The lengths of the words determine the code: words of one length are consecutive
numbers in the order of their symbols, and longer words follow shorter ones.

A code should be complete, so that every sequence of bits begins with a word.  Two
others can be used all the same: the code without words, and the code whose only
word is a single bit.  In them a bit that begins no word is refused as soon as it
has been read.
-/

namespace ScoreSynth.Gzip

/-- A code, by the lengths of its words. -/
structure Code where
  /-- The number of words of each length, from one bit to the longest word. -/
  counts : List Nat
  /-- The symbols in the order of their words. -/
  symbols : Array Nat

namespace Code

/-- The lengths that are tried for the words of a code: all up to the greatest, and
one bit even if there is no word. -/
def tried (lengths : List Nat) : List Nat :=
  List.range' 1 (lengths.foldl max 1)

/-- The code in which each symbol has a word of the given length, or none if the
length is zero. -/
def ofLengths (lengths : List Nat) : Code where
  counts := (tried lengths).map lengths.count
  symbols := ((tried lengths).flatMap fun length =>
    (lengths.zipIdx.filter (·.1 = length)).map (·.2)).toArray

/-- How many words of the greatest length the words of a code take up. -/
def weight (code : Code) : Nat :=
  code.counts.foldl (fun weight count => 2 * weight + count) 0

/-- Whether every sequence of bits begins with a word, and with one word only. -/
def isComplete (code : Code) : Bool :=
  code.weight = Nat.pow 2 code.counts.length

/-- Whether a code is complete, or has no word, or no word but a single bit. -/
def isUsable (code : Code) : Bool :=
  code.isComplete || code.counts = [0] || code.counts = [1]

/-- Read a word bit by bit.  `counts` are the numbers of words of the lengths still
to be tried, `word` is what has been read, `first` the first word of the present
length and `index` the position of its symbol. -/
def symbolFrom (symbols : Array Nat) : (counts : List Nat) → (word first index : Nat) →
    (stream : BitStream) → Except Fault (Nat × stream.After)
  | [], _, _, _, _ => .error .corrupt
  | count :: counts, word, first, index, stream => do
      let (bit, rest) ← stream.next
      let word := 2 * word + bit.toNat
      let first := 2 * first
      if word < first + count then
        match symbols[index + (word - first)]? with
        | some symbol => return (symbol, rest)
        | none => throw .corrupt
      else
        let (symbol, rest') ←
          symbolFrom symbols counts word (first + count) (index + count) rest.1
        return (symbol, ⟨rest'.1, Nat.lt_trans rest'.2 rest.2⟩)

/-- Read the word of a symbol.  Bits that begin no word are found out once as many
as the longest word have been read. -/
def symbol (code : Code) (stream : BitStream) : Except Fault (Nat × stream.After) :=
  symbolFrom code.symbols code.counts 0 0 0 stream

end Code

end ScoreSynth.Gzip
