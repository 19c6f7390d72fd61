import ScoreSynth.Binary.Truncation
import ScoreSynth.Fault
import ScoreSynth.Text.Numeral

/-!
# Samples

A sample is a signed byte.  A value becomes a sample by losing its fraction and
then all but its low eight bits, so a value that is too large for a byte wraps
around; that is part of the instruments' timbre.  The volume is applied to a
value that is a sample already, and its product is narrowed once more.
-/

namespace ScoreSynth

/-- The level of a sound at one instant. -/
abbrev Sample := Int8

namespace Sample

/-- Narrow a value to a sample.  The value passes through thirty-two bits, which
keep what is too large for them at their ends. -/
def quantize (value : Float) : Sample :=
  Int8.ofInt (Binary.truncate Numeral.lowest32 Numeral.highest32 value)

/-- A sample as a double. -/
def toFloat (sample : Sample) : Float :=
  Float.ofInt sample.toInt

/-- Apply a volume to a sample. -/
def scale (volume : Float) (sample : Sample) : Sample :=
  quantize (sample.toFloat * volume)

/-- The number of samples that cover a duration; the last one is dropped unless
it is complete.  The product must fit in sixty-four bits. -/
def count (duration rate : Nat) : Except Fault Nat :=
  if duration * rate < Numeral.bound64 then .ok (duration * rate / 1000)
  else .error (.tooLong duration rate)

end Sample

end ScoreSynth
