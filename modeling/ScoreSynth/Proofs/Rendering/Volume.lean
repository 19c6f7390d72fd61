import ScoreSynth.Proofs.Rendering.Locality

/-!
# Where the volume has its part

The volume is applied last, sample by sample.  What it is applied to is known without it: a sample
of a wave or of a drum that is narrowed already, or the half of the oscillation that the square
wave is in (`Voice.VolumeLast`).  Whether a sound can be played, how long it is and how many words
it draws is the same at every volume (`Voice.playIn_volume`).
-/

namespace ScoreSynth

/-- The instruments that are heard through a formula: all but the silent one, the square wave
and the drum kit. -/
def Waveform.formulas : List Instrument :=
  [.sinwave, .sawtoothwave, .trianglewave, .draworgan, .oboe, .flute]

theorem Waveform.sample_of_mem_formulas {instrument : Instrument}
    (member : instrument ∈ formulas) (volume : Float) (tone : Tone) (position : Nat) :
    instrument.isDrum = false ∧
      sample instrument volume tone position =
        Sample.scale volume (base instrument tone position) := by
  cases instrument
  case test | sqwave | drum => contradiction
  all_goals exact ⟨rfl, rfl⟩

namespace Voice

/-- The same voice at another volume. -/
def atVolume (voice : Voice) (volume : Float) : Voice :=
  { voice with volume }

/-- Whether the samples of a sound are made from what is known without the volume.  The samples
of the formulas depend on the pitch and the rate, and the halves of the square wave do so too;
the samples of a drum depend on the pitch and on the word that is drawn in their turn. -/
structure VolumeLast (voice : Voice) (pitch : Pitch) (tape : RandomTape)
    (samples : List Sample) : Prop where
  formula : voice.instrument ∈ Waveform.formulas → ∀ position, position < samples.length →
    samples[position]? = some (Sample.scale voice.volume
      (Waveform.base voice.instrument (Tone.ofPitch pitch voice.rate) position))
  square : voice.instrument = .sqwave → ∀ position, position < samples.length →
    samples[position]? = some (match Waveform.half (Tone.ofPitch pitch voice.rate) position with
      | .gt => Sample.quantize (32 * voice.volume)
      | .lt => Sample.quantize (-32 * voice.volume)
      | .eq => 0)
  drum_first : voice.instrument = .drum → 0 < samples.length → samples[0]? = some 0
  drum_later : voice.instrument = .drum → ∀ before, before + 1 < samples.length →
    samples[before + 1]? = some (Sample.scale voice.volume
      (Percussion.base pitch (before + 1) (tape.ahead before)))
  silent : voice.instrument = .test → ∀ position, position < samples.length →
    samples[position]? = some 0

/-- Samples that are made one by one have the volume applied last. -/
theorem volumeLast_map (voice : Voice) (pitch : Pitch) (tape : RandomTape) (size : Nat) :
    voice.VolumeLast pitch tape ((List.range size).map (voice.sampleAt pitch tape.ahead)) := by
  have made (position : Nat) (inside : position < size) :
      ((List.range size).map (voice.sampleAt pitch tape.ahead))[position]? =
        some (voice.sampleAt pitch tape.ahead position) := by
    rw [List.getElem?_map, List.getElem?_range inside]
    rfl
  constructor
  case formula =>
    intro member position inside
    obtain ⟨melodic, scaled⟩ := Waveform.sample_of_mem_formulas member voice.volume
      (Tone.ofPitch pitch voice.rate) position
    rw [made position (by simpa using inside), sampleAt_of_melodic melodic, scaled]
  case square =>
    intro kind position inside
    have melodic : voice.instrument.isDrum = false := by rw [kind]; rfl
    rw [made position (by simpa using inside), sampleAt_of_melodic melodic, kind]
    cases half : Waveform.half (Tone.ofPitch pitch voice.rate) position <;>
      simp only [Waveform.sample, Waveform.square, half]
  case silent =>
    intro kind position inside
    have melodic : voice.instrument.isDrum = false := by rw [kind]; rfl
    rw [made position (by simpa using inside), sampleAt_of_melodic melodic, kind]
    rfl
  case drum_first =>
    intro kind inside
    rw [made 0 (by simpa using inside), sampleAt_of_drum (decide_eq_true kind)]
    rfl
  case drum_later =>
    intro kind before inside
    rw [made (before + 1) (by simpa using inside), sampleAt_of_drum (decide_eq_true kind)]
    rfl

/-- The volume has its part in a sound where it is applied to samples that are known without it,
and nowhere else.  A sound that can be played at one volume can be played at every other, has as
many samples there and leaves the same tape; a sound that cannot be played fails alike at every
volume. -/
theorem playIn_volume (voice : Voice) (grants : Nat → Bool) (pitch : Pitch) (duration : Nat)
    (tape : RandomTape) :
    (∀ request, voice.playIn (Memory.ample.grants request) pitch duration =
      voice.sound pitch duration) ∧
    match (voice.playIn grants pitch duration).run tape with
      | (.ok samples, rest) =>
          voice.VolumeLast pitch tape samples ∧
          ∀ volume, ∃ others,
            ((voice.atVolume volume).playIn grants pitch duration).run tape = (.ok others, rest) ∧
              others.length = samples.length
      | (.error fault, rest) =>
          ∀ volume, ((voice.atVolume volume).playIn grants pitch duration).run tape =
            (.error fault, rest) := by
  refine ⟨fun request => voice.playIn_ample request pitch duration, ?_⟩
  have sizes (volume : Float) : (voice.atVolume volume).sizeIn grants pitch duration =
      voice.sizeIn grants pitch duration := rfl
  simp only [run_playIn, sizes]
  cases voice.sizeIn grants pitch duration with
  | error fault => exact fun volume => rfl
  | ok size =>
      refine ⟨volumeLast_map voice pitch tape size, fun volume => ⟨_, rfl, ?_⟩⟩
      simp

end Voice

end ScoreSynth
