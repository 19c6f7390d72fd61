import ScoreSynth.Memory
import ScoreSynth.Percussion
import ScoreSynth.Settings
import ScoreSynth.Waveform

/-!
# The sound of a note

A voice turns a pitch and a duration into samples.  It refuses a pitch that its
instrument does not play before it looks at the duration, and a duration that
has no buffer before it draws a random word.
-/

namespace ScoreSynth

/-- An instrument with its volume and its sample rate. -/
structure Voice where
  instrument : Instrument
  volume : Float
  rate : Nat

/-- A computation that may fail, and that draws random words either way. -/
abbrev Synthesis := ExceptT Fault (StateM RandomTape)

namespace Voice

/-- The samples of a pitch, given how many there are. -/
def fill (voice : Voice) (pitch : Pitch) (size : Nat) : Synthesis (List Sample) :=
  if voice.instrument.isDrum then
    Percussion.overwrite pitch voice.volume (List.replicate size 0)
  else
    let tone := Tone.ofPitch pitch voice.rate
    return (List.range size).map (Waveform.sample voice.instrument voice.volume tone)

/-- The samples of a pitch for a duration, if their buffer is granted. -/
def soundIn (voice : Voice) (grants : Nat → Bool) (pitch : Pitch) (duration : Nat) :
    Synthesis (List Sample) := do
  voice.instrument.check pitch
  let size ← Sample.bufferSizeIn grants duration voice.rate
  voice.fill pitch size

/-- The samples of a pitch for a duration, if such a buffer can be had at all. -/
def sound (voice : Voice) (pitch : Pitch) (duration : Nat) : Synthesis (List Sample) :=
  voice.soundIn (Memory.ample.grants 0) pitch duration

end Voice

namespace Settings

/-- The voice that plays the notes of a channel. -/
def voice (settings : Settings) : Voice :=
  ⟨settings.instrument, settings.volume, settings.rate⟩

end Settings

end ScoreSynth
