import ScoreSynth.RandomTape
import ScoreSynth.Sample

/-!
# Percussion

Click and bass are sine sweeps whose frequency and level fall with time.  The
snare is noise at full level for a short burst, which then dies away; each of
its samples draws one random word.  The first sample of a buffer is never
written.
-/

namespace ScoreSynth.Percussion

/-- The number of samples for which the snare stays at full level. -/
def snareBurst : Nat := 500

/-- The noise of a random number, before it dies away. -/
def noise (number : Float) : Float :=
  255 * (number - 0.5)

/-- The level of the snare at a sample, from its random number. -/
def snareLevel (position : Nat) (number : Float) : Float :=
  if position < snareBurst then noise number
  else noise number * (snareBurst.toFloat / (6 * position.toFloat))

/-- The level of a drum at a sample after the first.  Pitches that are no
percussion sound are silent. -/
def level (pitch : Pitch) (position : Nat) : StateM RandomTape Float :=
  let time := position.toFloat
  if pitch = Pitch.click then
    return 30000 * Float.sin (0.75 * Float.sqrt time) / time
  else if pitch = Pitch.bass then
    return 250000 * Float.sin (0.3 * Float.sqrt time) / time
  else if pitch = Pitch.snare then
    return snareLevel position (← RandomTape.draw)
  else return 0

/-- The sample of a drum at a position after the first. -/
def sample (pitch : Pitch) (volume : Float) (position : Nat) :
    StateM RandomTape Sample :=
  return Sample.scale volume (Sample.quantize (← level pitch position))

/-- Write the sound of a drum over a buffer. -/
def overwrite (pitch : Pitch) (volume : Float) (buffer : List Sample) :
    StateM RandomTape (List Sample) :=
  match buffer with
  | [] => return []
  | first :: others =>
      return first :: (← (List.range' 1 others.length).mapM (sample pitch volume))

end ScoreSynth.Percussion
