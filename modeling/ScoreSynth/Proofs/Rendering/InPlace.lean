import ScoreSynth.Proofs.Binary.WholeNumbers
import ScoreSynth.Rendering.InPlace

/-!
# What is written in place

A loop over a buffer leaves alone what stands before its first position, and replaces the rest
sample by sample; nothing that is written is looked at again.  So the loops of the instruments,
different as they are, make the samples that the formulas of the instruments give
(`Voice.playIn_eq_soundIn`).
-/

namespace ScoreSynth

/-! ## Loops over a buffer -/

namespace Sample

variable (sample : Nat → StateM RandomTape Sample)

/-- What stands before the position at which a loop begins is left as it is, and what stands
behind it is replaced in order. -/
theorem overwriteFrom_append (before later : List Sample) :
    overwriteFrom before.length sample (before ++ later) = do
      let written ← (List.range' before.length later.length).mapM sample
      return before ++ written := by
  rw [overwriteFrom, List.length_append, Nat.add_sub_cancel_left]
  -- Each turn moves one sample from what is to come to what has been written.
  induction later generalizing before with
  | nil => simp
  | cons old later ih =>
      have turn (new : Sample) :
          (before ++ old :: later).set before.length new = (before ++ [new]) ++ later := by
        simp
      have further (new : Sample) := ih (before ++ [new])
      simp only [List.length_append, List.length_singleton, List.append_assoc,
        List.singleton_append] at turn further
      simp only [List.length_cons, List.range'_succ, List.foldlM_cons, List.mapM_cons, turn,
        further, bind_assoc, pure_bind]

/-- A loop over a whole buffer leaves nothing of what it held. -/
theorem overwriteFrom_zero (buffer : List Sample) :
    overwriteFrom 0 sample buffer = (List.range buffer.length).mapM sample := by
  have whole := overwriteFrom_append sample [] buffer
  simpa [List.range_eq_range'] using whole

/-- A loop that draws no words writes what its formula gives for each position. -/
theorem overwriteFrom_pure (formula : Nat → Sample) (buffer : List Sample) :
    overwriteFrom 0 (fun position => return formula position) buffer =
      return (List.range buffer.length).map formula := by
  rw [overwriteFrom_zero, List.mapM_pure]

/-- To narrow once more what has been narrowed changes nothing. -/
@[simp] theorem quantize_toFloat (sample : Sample) : quantize sample.toFloat = sample := by
  have least : -128 ≤ sample.toInt := Int8.minValue_le_toInt sample
  have most : sample.toInt ≤ 127 := Int8.toInt_le sample
  rw [quantize, toFloat, Binary.truncate_ofInt]
  · exact Int8.ofInt_toInt sample
  · unfold Numeral.lowest32
    omega
  · unfold Numeral.highest32
    omega
  · omega

end Sample

/-- The loop of the drum kit, over any buffer. -/
theorem Percussion.overwrite_eq_overwriteFrom (pitch : Pitch) (volume : Float)
    (buffer : List Sample) :
    overwrite pitch volume buffer = Sample.overwriteFrom 1 (sample pitch volume) buffer := by
  cases buffer with
  | nil => rfl
  | cons first others =>
      have behind := Sample.overwriteFrom_append (sample pitch volume) [first] others
      simpa [overwrite] using behind.symm

/-! ## The sound that is written -/

/-- The levels of the square wave, each chosen by the sign of the sine. -/
theorem Waveform.square_half (volume : Float) (tone : Tone) (position : Nat) :
    square volume (half tone position) =
      if sine (tone.angle position) > 0 then Sample.quantize (32 * volume)
      else if sine (tone.angle position) < 0 then Sample.quantize (-32 * volume)
      else 0 := by
  rw [half]
  split
  · rfl
  · split <;> rfl

namespace Voice

/-- Every loop that draws no words writes the samples of the instrument. -/
theorem overwrite_of_melodic {voice : Voice} (melodic : voice.instrument.isDrum = false)
    (pitch : Pitch) (size : Nat) :
    voice.overwrite pitch (List.replicate size 0) =
      return (List.range size).map
        (Waveform.sample voice.instrument voice.volume (Tone.ofPitch pitch voice.rate)) := by
  obtain ⟨instrument, volume, rate⟩ := voice
  cases instrument
  case drum => contradiction
  case test =>
    have silent : Waveform.sample .test volume (Tone.ofPitch pitch rate) = fun _ => 0 := rfl
    simp [overwrite, silent, List.map_const']
  case sqwave =>
    simp only [overwrite, Sample.overwriteFrom_pure, List.length_replicate,
      ← Waveform.square_half]
    rfl
  all_goals
    simp only [overwrite, Sample.overwriteFrom_pure, List.length_replicate,
      Sample.quantize_toFloat]
    rfl

/-- The loops over a buffer of zeros make the samples of a voice. -/
theorem liftM_overwrite (voice : Voice) (pitch : Pitch) (size : Nat) :
    (liftM (voice.overwrite pitch (List.replicate size 0)) : Synthesis (List Sample)) =
      voice.fill pitch size := by
  rw [fill]
  cases kind : voice.instrument.isDrum with
  | false =>
      rw [overwrite_of_melodic kind]
      rfl
  | true =>
      have drum : voice.instrument = .drum := of_decide_eq_true kind
      simp only [overwrite, drum, Percussion.overwrite_eq_overwriteFrom]
      rfl

/-- In any memory, the sound that is written in place is the sound of the voice. -/
theorem playIn_eq_soundIn (voice : Voice) (grants : Nat → Bool) (pitch : Pitch)
    (duration : Nat) : voice.playIn grants pitch duration = voice.soundIn grants pitch duration := by
  simp only [playIn, soundIn, liftM_overwrite]

theorem playIn_ample (voice : Voice) (request : Nat) (pitch : Pitch) (duration : Nat) :
    voice.playIn (Memory.ample.grants request) pitch duration = voice.sound pitch duration := by
  rw [playIn_eq_soundIn]
  rfl

end Voice

end ScoreSynth
