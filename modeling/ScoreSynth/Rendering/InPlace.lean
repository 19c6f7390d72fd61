import ScoreSynth.Sound

/-!
# Sounds written in place

A sound has its buffer before it has any of its samples.  The buffer holds zeros, and they are
written over one after the other.  The waves share a loop, which narrows once more what their
formulas have narrowed already.  The square wave has a loop of its own, with both of its levels
found before it begins.  The drum kit passes over the first sample and may draw a word for each
of the others, and the silent instrument leaves the zeros as they are.
-/

namespace ScoreSynth

/-- Write over the samples of a buffer one after the other, from a position to the end. -/
def Sample.overwriteFrom (start : Nat) (sample : Nat → StateM RandomTape Sample)
    (buffer : List Sample) : StateM RandomTape (List Sample) :=
  (List.range' start (buffer.length - start)).foldlM
    (fun buffer position => return buffer.set position (← sample position)) buffer

namespace Voice

/-- Write the sound of a pitch over a buffer. -/
def overwrite (voice : Voice) (pitch : Pitch) (buffer : List Sample) :
    StateM RandomTape (List Sample) :=
  let tone := Tone.ofPitch pitch voice.rate
  match voice.instrument with
  | .test => return buffer
  | .drum => Sample.overwriteFrom 1 (Percussion.sample pitch voice.volume) buffer
  | .sqwave =>
      let high := Sample.quantize (32 * voice.volume)
      let low := Sample.quantize (-32 * voice.volume)
      Sample.overwriteFrom 0 (fun position =>
        let level := Waveform.sine (tone.angle position)
        return if level > 0 then high else if level < 0 then low else 0) buffer
  | wave =>
      Sample.overwriteFrom 0 (fun position =>
        let level := (Waveform.base wave tone position).toFloat
        return Sample.scale voice.volume (Sample.quantize level)) buffer

/-- The samples of a pitch for a duration, written over a buffer of zeros. -/
def playIn (voice : Voice) (grants : Nat → Bool) (pitch : Pitch) (duration : Nat) :
    Synthesis (List Sample) := do
  voice.instrument.check pitch
  let size ← Sample.bufferSizeIn grants duration voice.rate
  voice.overwrite pitch (List.replicate size 0)

end Voice

end ScoreSynth
