import ScoreSynth.Binary.Remainder
import ScoreSynth.Sample

/-!
# Waveforms

Each melodic instrument has a formula for its level at a sample.  All but the
square wave narrow that level to a sample first and apply the volume afterwards;
the square wave has three levels, which are chosen by the sign of a sine and
narrowed with the volume in them.
-/

namespace ScoreSynth

/-- The pitch of a sound at a sample rate. -/
structure Tone where
  /-- Oscillations per second. -/
  frequency : Float
  /-- The angle between two samples. -/
  step : Float

namespace Tone

/-- The ratio of a circle's circumference to its diameter. -/
def pi : Float := 3.141592653589793

/-- The tone of a pitch at a sample rate. -/
def ofPitch (pitch : Pitch) (rate : Nat) : Tone :=
  let frequency := pitch.frequency
  ⟨frequency, 2 * pi / (rate.toFloat / frequency)⟩

/-- The angle of a tone at a sample. -/
def angle (tone : Tone) (position : Nat) : Float :=
  tone.step * position.toFloat

end Tone

namespace Waveform

/-- A linear rise over the first samples of a note. -/
def attack (length position : Nat) : Float :=
  if position < length then position.toFloat / length.toFloat else 1

/-- The number of samples in which the oboe reaches its level. -/
def oboeAttack : Nat := 1500

/-- The number of samples in which the flute reaches its level. -/
def fluteAttack : Nat := 1000

/-- The slow swell of the wind instruments.  It is not a number at the angle
zero, which makes the first sample silent. -/
def swell (angle : Float) : Float :=
  1 + 3 * Float.sin (0.000002 * (angle * angle)) / Float.sqrt (2 * angle)

/-- The level of a sine, before it is narrowed. -/
def sine (angle : Float) : Float :=
  Float.sin angle * 127

/-- A falling ramp, cut to a third after it is narrowed. -/
def sawtooth (frequency : Float) (position : Nat) : Sample :=
  let ramp := -(position.toFloat * frequency / 64)
  Sample.quantize (Binary.remainder ramp 128) / 3

/-- Rising and falling ramps in turn. -/
def triangle (frequency : Float) (position : Nat) : Float :=
  let phase := Binary.remainder (position.toFloat / 8195 * frequency) 2
  (Float.abs (phase - 1) - 0.5) * 100

/-- Sines and cosines of several drawbars. -/
def drawbars (angle : Float) : Float :=
  (Float.sin angle + Float.cos (2 * angle) + Float.sin (3 * angle) +
    Float.cos (4 * angle) - 0.25 * Float.sin (5 * angle) - Float.cos (6 * angle) -
    0.075 * Float.sin (8 * angle)) * 20

/-- The overtones of a reed. -/
def reed (angle : Float) (position : Nat) : Float :=
  (-Float.sin angle + Float.sin (2 * angle) - Float.sin (3 * angle) +
    Float.sin (4 * angle) + Float.sin (5 * angle) + Float.sin (6 * angle) +
    Float.sin (7 * angle) + 0.37 * Float.sin (8 * angle)) *
    attack oboeAttack position * swell angle * 12

/-- The overtones of a pipe. -/
def pipe (angle : Float) (position : Nat) : Float :=
  (-Float.sin angle - Float.sin (2 * angle) - 0.185 * Float.sin (3 * angle) +
    0.05 * Float.cos (4 * angle)) *
    attack fluteAttack position * swell angle * 60

/-- The sample of an instrument before its volume is applied.  The square wave,
the drum kit and the silent instrument have none of their own. -/
def base (instrument : Instrument) (tone : Tone) (position : Nat) : Sample :=
  let angle := tone.angle position
  match instrument with
  | .sinwave => Sample.quantize (sine angle)
  | .sawtoothwave => sawtooth tone.frequency position
  | .trianglewave => Sample.quantize (triangle tone.frequency position)
  | .draworgan => Sample.quantize (drawbars angle)
  | .oboe => Sample.quantize (reed angle position)
  | .flute => Sample.quantize (pipe angle position)
  | .test | .sqwave | .drum => 0

/-- The sign of a tone at a sample: which half of the oscillation it is in. -/
def half (tone : Tone) (position : Nat) : Ordering :=
  let level := sine (tone.angle position)
  if level > 0 then .gt else if level < 0 then .lt else .eq

/-- A sample of the square wave. -/
def square (volume : Float) : Ordering → Sample
  | .gt => Sample.quantize (32 * volume)
  | .lt => Sample.quantize (-32 * volume)
  | .eq => 0

/-- The sample of a melodic instrument at a position. -/
def sample (instrument : Instrument) (volume : Float) (tone : Tone)
    (position : Nat) : Sample :=
  match instrument with
  | .test | .drum => 0
  | .sqwave => square volume (half tone position)
  | _ => Sample.scale volume (base instrument tone position)

end Waveform

end ScoreSynth
