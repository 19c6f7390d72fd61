import ScoreSynth.Binary.Narrowing
import ScoreSynth.Sample

/-!
# Resampling

An output device has a rate of its own.  Samples are brought to it by linear
interpolation between neighbours: the sample at an output position lies at that
position times the ratio of the rates.  The output is as long as it must be to
cover the input.
-/

namespace ScoreSynth.Resampling

/-- A sample as a level from minus one up to, but not including, one. -/
def level (sample : Sample) : Float32 :=
  Float32.ofInt sample.toInt / 128

/-- The number of samples at the target rate that cover some samples at the
source rate: the quotient, rounded up. -/
def length (samples source target : Nat) : Nat :=
  (samples * target + source - 1) / source

/-- The level at an exact position, given the samples before and behind it.  The
last sample is held. -/
def between (fraction : Float32) : Option Sample → Option Sample → Float32
  | some before, some behind =>
      level before + (level behind - level before) * fraction
  | some before, none => level before
  | none, _ => 0

/-- The level at one position of the output. -/
def interpolate (samples : Array Sample) (ratio : Float) (position : Nat) : Float32 :=
  let place := position.toFloat * ratio
  let whole := place.toUInt64.toNat
  let fraction := Binary.narrow (place - whole.toFloat)
  between fraction samples[whole]? samples[whole + 1]?

/-- Bring samples to another rate, whether or not it differs. -/
def stretch (samples : List Sample) (source target : Nat) : List Float32 :=
  let ratio := source.toFloat / target.toFloat
  (List.range (length samples.length source target)).map
    (interpolate samples.toArray ratio)

/-- Bring samples to the rate of a device.  A rate of zero has no samples. -/
def toRate (samples : List Sample) (source target : Nat) : List Float32 :=
  if samples.isEmpty || source == 0 || target == 0 then []
  else if source = target then samples.map level
  else stretch samples source target

end ScoreSynth.Resampling
