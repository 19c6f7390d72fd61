/-!
# Random words

Noise is made from random words that are read in order from a tape.  The tape
counts how many of them have been drawn.  How the generator makes a number of a
word is left to the tape.
-/

namespace ScoreSynth

/-- Random words in the order in which they are drawn. -/
structure RandomTape where
  word : Nat → UInt64
  /-- The number from zero up to, but not including, one that a word stands for. -/
  unit : UInt64 → Float
  drawn : Nat

namespace RandomTape

/-- The number that the upper fifty-three bits of a word stand for. -/
def upperBits (word : UInt64) : Float :=
  (word >>> 11).toFloat / 9007199254740992

/-- A tape of which nothing has been drawn, and whose words stand for their upper
bits. -/
def fresh (word : Nat → UInt64) : RandomTape :=
  ⟨word, upperBits, 0⟩

/-- Draw the next word, for the number that it stands for. -/
def draw : StateM RandomTape Float :=
  modifyGet fun tape =>
    (tape.unit (tape.word tape.drawn), { tape with drawn := tape.drawn + 1 })

/-- The word in the middle of the range, whose noise is silent. -/
def middle : UInt64 := 0x8000000000000000

end RandomTape

end ScoreSynth
