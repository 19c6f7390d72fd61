import ScoreSynth.Proofs.Binary.Identities
import ScoreSynth.Proofs.Binary.SinglePrecision
import ScoreSynth.Proofs.Resampling

/-!
# Resampling to the same rate

Where the rate stays the same, sound is only converted to levels.  Interpolation would give these
levels too, to the last bit (`stretch_self`): the ratio of the rates is one, each position is a
whole number, and nothing of the next sample is mixed in, not even the sign of a zero.  All this
holds at the positions that are doubles, and so below two to the power of fifty-three.
-/

namespace ScoreSynth.Resampling

open Binary

/-- There are no more than two hundred and fifty-six samples. -/
theorem isModerate_level (sample : Sample) :
    isModerate (level sample).toModel.unpack = true := by
  have every : ∀ bits : BitVec 8,
      isModerate (level (Int8.ofBitVec bits)).toModel.unpack = true := by
    decide +kernel
  exact every sample.toBitVec

/-- At the place of a sample itself the next one has no weight.  Its difference times zero is a
zero of either sign, and no level is a negative zero. -/
theorem between_zero (before : Sample) (behind : Option Sample) :
    between 0 (some before) behind = level before := by
  cases behind with
  | none => rfl
  | some next =>
      have finite := isFinite_sub (isModerate_level next) (isModerate_level before)
      obtain ⟨sign, weighted⟩ := exists_mul_zero finite
      have positive : (level before).toModel.unpack ≠ .zero .negative := by
        intro negative
        have moderate := isModerate_level before
        rw [negative] at moderate
        exact absurd moderate (by decide)
      rw [between, weighted, add_singleZero sign positive]

variable {sound : List Sample} {rate position : Nat}

theorem narrow_zero : narrow 0 = 0 := by
  decide

/-- At a ratio of one an output sample lies on the input sample at its own position. -/
theorem interpolate_one (small : position < 2 ^ 53) (within : position < sound.length) :
    interpolate sound.toArray 1 position = level sound[position] := by
  have here : sound.toArray[position]? = some sound[position] := by
    rw [List.getElem?_toArray, List.getElem?_eq_getElem within]
  simp only [interpolate, toFloat_mul_one small, toNat_toUInt64_toFloat small,
    toFloat_sub_self small, narrow_zero, here, between_zero]

theorem getElem?_stretch_self (rate_pos : 0 < rate) (rateFits : rate < 2 ^ 53)
    (small : position < 2 ^ 53) :
    (stretch sound rate rate)[position]? = (sound.map level)[position]? := by
  rw [stretch, toFloat_div_self rate_pos rateFits, length_self rate_pos, List.getElem?_map,
    List.getElem?_map]
  by_cases within : position < sound.length
  · rw [List.getElem?_range within, List.getElem?_eq_getElem within, Option.map_some,
      Option.map_some, interpolate_one small within]
  · rw [List.getElem?_eq_none (by simpa using within), List.getElem?_eq_none (not_lt.1 within)]
    rfl

/-- Sound that keeps its rate is only converted. -/
theorem toRate_self (rate_pos : 0 < rate) : toRate sound rate rate = sound.map level := by
  rw [toRate]
  split
  · next unusable =>
    have empty : sound = [] := by simpa [rate_pos.ne'] using unusable
    rw [empty, List.map_nil]
  · rw [if_pos rfl]

/-- Interpolation with equal rates makes as many levels as there are samples, also when the number
is found with sixty-four bits, and at each position below two to the power of fifty-three the
level that conversion makes there, with all its bits.  So it makes the converted sound where all
positions are below.  From two kilohertz on the sixty-four bits see to that; at lower rates they
would hold the product for more samples than that. -/
theorem stretch_self {sound : List Sample} {rate : Nat} (rate_pos : 0 < rate)
    (rateFits : rate < 2 ^ 32) (fits : sound.length * rate < 2 ^ 64) :
    toRate sound rate rate = sound.map level ∧
    (length64 (.ofNat sound.length) (.ofNat rate) (.ofNat rate)).toNat = sound.length ∧
    (stretch sound rate rate).length = sound.length ∧
    (∀ position < 2 ^ 53,
      (stretch sound rate rate)[position]? = (toRate sound rate rate)[position]?) ∧
    (sound.length ≤ 2 ^ 53 ∨ 2 ^ 11 ≤ rate →
      stretch sound rate rate = toRate sound rate rate) := by
  have rateWord : (UInt64.ofNat rate).toNat = rate :=
    UInt64.toNat_ofNat_of_lt' (rateFits.trans (by decide))
  have samples : (UInt64.ofNat sound.length).toNat = sound.length :=
    UInt64.toNat_ofNat_of_lt' ((Nat.le_mul_of_pos_right _ rate_pos).trans_lt fits)
  have length : (stretch sound rate rate).length = sound.length := by
    rw [stretch, List.length_map, List.length_range, length_self rate_pos]
  have agree (position : Nat) (small : position < 2 ^ 53) :
      (stretch sound rate rate)[position]? = (toRate sound rate rate)[position]? := by
    rw [toRate_self rate_pos, getElem?_stretch_self rate_pos (by omega) small]
  refine ⟨toRate_self rate_pos, ?_, length, agree, fun either => ?_⟩
  · rw [toNat_length64, samples, rateWord, length_self rate_pos]
    · rwa [rateWord]
    · rwa [samples, rateWord]
  · have short : sound.length ≤ 2 ^ 53 := by
      rcases either with short | high
      · exact short
      · have product : sound.length * 2 ^ 11 < 2 ^ 64 :=
          (Nat.mul_le_mul_left _ high).trans_lt fits
        omega
    apply List.ext_getElem?
    intro position
    by_cases within : position < sound.length
    · exact agree position (within.trans_le short)
    · rw [List.getElem?_eq_none (by omega), List.getElem?_eq_none]
      rw [toRate_self rate_pos, List.length_map]
      omega

theorem stretch_self_fourSamples :
    (length64 4 44100 44100).toNat = 4 ∧
      stretch [0, -128, 127, -1] 44100 44100 = toRate [0, -128, 127, -1] 44100 44100 ∧
      toRate [0, -128, 127, -1] 44100 44100 = [level 0, level (-128), level 127, level (-1)] := by
  obtain ⟨converted, word, _, _, same⟩ :=
    @stretch_self [0, -128, 127, -1] 44100 (by decide) (by decide) (by decide)
  exact ⟨word, same (.inr (by decide)), converted⟩

end ScoreSynth.Resampling
