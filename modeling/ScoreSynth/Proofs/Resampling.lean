import Mathlib
import ScoreSynth.Resampling

/-!
# The length of resampled sound

Sound that is brought to another rate has as few samples as cover what there was before
(`length_le_iff`).  So every sample of the output lies, at its exact position, over a sample of
the input, and where the rate does not fall no sample of the input is passed over
(`toRate_covers`).
-/

namespace ScoreSynth.Resampling

/-- The exact position of an output sample, counted in samples of the input. -/
def place (source target position : Nat) : ℚ :=
  position * source / target

/-- The length as it is found with sixty-four bits: a quotient, and one more if there is a
remainder.  A product that is too large would lose its high bits. -/
def length64 (samples source target : UInt64) : UInt64 :=
  let product := samples * target
  if product % source = 0 then product / source else product / source + 1

variable {samples source target : Nat}

/-- The samples that suffice are those that last as long as the input. -/
theorem length_le_iff (source_pos : 0 < source) {size : Nat} :
    length samples source target ≤ size ↔ samples * target ≤ size * source := by
  change samples * target ⌈/⌉ source ≤ size ↔ _
  rw [ceilDiv_le_iff_le_mul source_pos, Nat.mul_comm source]

theorem isLeast_length (source_pos : 0 < source) :
    IsLeast {size | samples * target ≤ size * source} (length samples source target) :=
  ⟨(length_le_iff source_pos).1 le_rfl, fun _ covers => (length_le_iff source_pos).2 covers⟩

theorem lt_length_iff (source_pos : 0 < source) {position : Nat} :
    position < length samples source target ↔ position * source < samples * target :=
  lt_iff_lt_of_le_iff_le (length_le_iff source_pos)

theorem length_eq_ite (source_pos : 0 < source) :
    length samples source target =
      if samples * target % source = 0 then samples * target / source
      else samples * target / source + 1 := by
  have whole := Nat.div_add_mod' (samples * target) source
  have remainder := Nat.mod_lt (samples * target) source_pos
  rw [length]
  split
  · next none =>
    apply Nat.div_eq_of_lt_le
    · omega
    · rw [Nat.add_one_mul]
      omega
  · next some =>
    apply Nat.div_eq_of_lt_le
    · rw [Nat.add_one_mul]
      omega
    · rw [Nat.add_one_mul, Nat.add_one_mul]
      omega

/-- Sixty-four bits are enough for the length if they are for the product. -/
theorem toNat_length64 {samples source target : UInt64} (source_pos : 0 < source.toNat)
    (fits : samples.toNat * target.toNat < 2 ^ 64) :
    (length64 samples source target).toNat =
      length samples.toNat source.toNat target.toNat := by
  have product : (samples * target).toNat = samples.toNat * target.toNat := by
    rw [UInt64.toNat_mul, Nat.mod_eq_of_lt fits]
  have divides : (samples * target) % source = 0 ↔
      samples.toNat * target.toNat % source.toNat = 0 := by
    rw [← UInt64.toNat_inj, UInt64.toNat_mod, product]
    rfl
  rw [length64, length_eq_ite source_pos]
  simp only [divides]
  split
  · rw [UInt64.toNat_div, product]
  · next remains =>
    -- Where there is a remainder, the quotient is less than the product, so one more fits.
    have remainder := Nat.div_add_mod' (samples.toNat * target.toNat) source.toNat
    have quotient := Nat.le_mul_of_pos_right (samples.toNat * target.toNat / source.toNat)
      source_pos
    rw [UInt64.toNat_add, UInt64.toNat_div, product, UInt64.toNat_one, Nat.mod_eq_of_lt]
    omega

theorem floor_place (position : Nat) :
    ⌊place source target position⌋₊ = position * source / target := by
  rw [place, ← Nat.cast_mul, Nat.floor_div_eq_div]

/-- At its exact position every sample of the output lies before the end of the input. -/
theorem place_lt (source_pos : 0 < source) (target_pos : 0 < target) {position : Nat}
    (within : position < length samples source target) :
    place source target position < samples := by
  rw [place, div_lt_iff₀ (Nat.cast_pos.2 target_pos)]
  exact_mod_cast (lt_length_iff source_pos).1 within

/-- No more samples are taken than are needed. -/
theorem length_mul_lt (source_pos : 0 < source) :
    length samples source target * source < samples * target + source := by
  have quotient := Nat.div_mul_le_self (samples * target + source - 1) source
  rw [length]
  omega

/-- Where the rate does not fall, every sample of the input has one of the output over it:
the first one that does not lie before it. -/
theorem exists_floor_place (source_pos : 0 < source) (grows : source ≤ target) {index : Nat}
    (within : index < samples) :
    ∃ position < length samples source target, ⌊place source target position⌋₊ = index := by
  have reached : index * target ≤ length index source target * source :=
    (isLeast_length source_pos).1
  have near : length index source target * source < (index + 1) * target :=
    calc length index source target * source
      _ < index * target + source := length_mul_lt source_pos
      _ ≤ index * target + target := Nat.add_le_add_left grows _
      _ = (index + 1) * target := (Nat.add_one_mul index target).symm
  refine ⟨length index source target, ?_, ?_⟩
  · rw [lt_length_iff source_pos]
    exact near.trans_le (Nat.mul_le_mul_right target within)
  · rw [floor_place]
    exact Nat.div_eq_of_lt_le reached near

theorem length_self (source_pos : 0 < source) : length samples source source = samples := by
  apply eq_of_forall_ge_iff
  intro size
  rw [length_le_iff source_pos, Nat.mul_le_mul_right_iff source_pos]

/-- Sound has this length at its new rate, also where the rate stays the same. -/
theorem length_toRate {sound : List Sample} (nonempty : sound ≠ []) (source_pos : 0 < source)
    (target_pos : 0 < target) :
    (toRate sound source target).length = length sound.length source target := by
  have usable : (sound.isEmpty || source == 0 || target == 0) = false := by
    simp [nonempty, source_pos.ne', target_pos.ne']
  rw [toRate, usable, if_neg Bool.false_ne_true]
  split
  · next same =>
    subst same
    rw [List.length_map, length_self source_pos]
  · rw [stretch, List.length_map, List.length_range]

theorem toRate_eq_nil_iff {sound : List Sample} :
    toRate sound source target = [] ↔ sound = [] ∨ source = 0 ∨ target = 0 := by
  constructor
  · intro empty
    by_contra usable
    push Not at usable
    obtain ⟨nonempty, source_ne, target_ne⟩ := usable
    have source_pos := Nat.pos_of_ne_zero source_ne
    have target_pos := Nat.pos_of_ne_zero target_ne
    have long : 0 < (toRate sound source target).length := by
      rw [length_toRate nonempty source_pos target_pos, lt_length_iff source_pos, Nat.zero_mul]
      exact Nat.mul_pos (List.length_pos_of_ne_nil nonempty) target_pos
    rw [empty] at long
    exact absurd long (Nat.lt_irrefl 0)
  · intro unusable
    rw [toRate, if_pos]
    simpa [or_assoc] using unusable

/-- Sound at a new rate covers what there was before, with as few samples as can be.  There is
none of it exactly if there was none before, or if a rate is zero.  Otherwise its length, found
with sixty-four bits, is the least one that lasts as long as the input; at its exact position
each of its samples lies over one of the input; and where the rate does not fall, each sample of
the input lies under one of the output. -/
theorem toRate_covers {sound : List Sample} {source target : Nat} (sourceFits : source < 2 ^ 32)
    (targetFits : target < 2 ^ 32) (fits : sound.length * target < 2 ^ 64) :
    (toRate sound source target = [] ↔ sound = [] ∨ source = 0 ∨ target = 0) ∧
    (sound ≠ [] → 0 < source → 0 < target →
      IsLeast {size | sound.length * target ≤ size * source}
        (toRate sound source target).length ∧
      (length64 (.ofNat sound.length) (.ofNat source) (.ofNat target)).toNat =
        (toRate sound source target).length ∧
      (∀ position < (toRate sound source target).length,
        place source target position < sound.length ∧
          ⌊place source target position⌋₊ < sound.length) ∧
      (source ≤ target → ∀ index < sound.length,
        ∃ position < (toRate sound source target).length,
          ⌊place source target position⌋₊ = index)) := by
  refine ⟨toRate_eq_nil_iff, fun nonempty source_pos target_pos => ?_⟩
  rw [length_toRate nonempty source_pos target_pos]
  refine ⟨isLeast_length source_pos, ?_, ?_, ?_⟩
  · have samples : (UInt64.ofNat sound.length).toNat = sound.length :=
      UInt64.toNat_ofNat_of_lt' ((Nat.le_mul_of_pos_right _ target_pos).trans_lt fits)
    have sourceWord : (UInt64.ofNat source).toNat = source :=
      UInt64.toNat_ofNat_of_lt' (sourceFits.trans (by decide))
    have targetWord : (UInt64.ofNat target).toNat = target :=
      UInt64.toNat_ofNat_of_lt' (targetFits.trans (by decide))
    rw [toNat_length64, samples, sourceWord, targetWord]
    · rwa [sourceWord]
    · rwa [samples, targetWord]
  · intro position within
    have before := place_lt source_pos target_pos within
    exact ⟨before, (Nat.floor_lt' (List.length_pos_of_ne_nil nonempty).ne').2 before⟩
  · intro grows index within
    exact exists_floor_place source_pos grows within

theorem toRate_covers_thirds :
    (toRate [5, -7, 9] 2 3).length = 5 ∧
      (length64 3 2 3).toNat = 5 ∧
      (∀ position < 5, place 2 3 position < 3) ∧
      ∀ index < 3, ∃ position < 5, ⌊place 2 3 position⌋₊ = index := by
  obtain ⟨_, covers⟩ := @toRate_covers [5, -7, 9] 2 3 (by decide) (by decide) (by decide)
  have length : (toRate [5, -7, 9] 2 3).length = 5 := rfl
  obtain ⟨_, word, before, under⟩ := covers (by decide) (by decide) (by decide)
  rw [length] at before under word
  exact ⟨length, word, fun position within => (before position within).1, under (by decide)⟩

end ScoreSynth.Resampling
