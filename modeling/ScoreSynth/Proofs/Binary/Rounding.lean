import Mathlib

/-!
# Rounding to doubles

An operation on doubles finds at least the fifty-three leading bits of its result, and says
of the rest only how it compares with one half.  That is enough to find the nearest double,
and the even one of two that are equally near (`exists_nearest_of_roundWithAccuracy`).
-/

namespace ScoreSynth.Binary

open Float.Model (UnpackedFloat Format totalExponent)
open Float.Model.UnpackedFloat

/-! ## Nearest whole numbers -/

/-- Whether a whole number is the nearest one to a number, and the even one if two are
equally near. -/
structure NearestEven (number : ℚ) (whole : ℕ) : Prop where
  distance : |number - whole| ≤ 1 / 2
  even_of_tie : |number - whole| = 1 / 2 → Even whole

theorem nearestEven_self (whole : ℕ) : NearestEven whole whole := by
  constructor
  · norm_num
  · norm_num

namespace NearestEven

variable {number : ℚ} {whole : ℕ}

theorem le_of_le (nearest : NearestEven number whole) (bound : ℕ) (above : bound ≤ number) :
    bound ≤ whole := by
  have close := (abs_le.1 nearest.distance).2
  have within : (bound : ℚ) < whole + 1 := by linarith
  exact Nat.lt_succ_iff.1 (by exact_mod_cast within)

theorem ge_of_le (nearest : NearestEven number whole) (bound : ℕ) (below : number ≤ bound) :
    whole ≤ bound := by
  have close := (abs_le.1 nearest.distance).1
  have within : (whole : ℚ) < bound + 1 := by linarith
  exact Nat.lt_succ_iff.1 (by exact_mod_cast within)

/-- An even number is reached from below up to a distance of one half. -/
theorem eq_iff_of_even (nearest : NearestEven number whole) {bound : ℕ} (even : Even bound)
    (below : number < bound) : whole = bound ↔ bound - number ≤ 1 / 2 := by
  constructor
  · rintro rfl
    have close := (abs_le.1 nearest.distance).1
    linarith
  · intro near
    have atMost := nearest.ge_of_le bound below.le
    have close := (abs_le.1 nearest.distance).2
    by_contra other
    -- The number below an even one is odd, so a tie between them goes up.
    have next : whole + 1 = bound := by
      have within : (bound : ℚ) ≤ whole + 1 := by linarith
      have within : bound ≤ whole + 1 := by exact_mod_cast within
      omega
    have exactly : number - whole = 1 / 2 := by
      have cast : (whole : ℚ) + 1 = bound := by exact_mod_cast next
      linarith
    have evenBelow := nearest.even_of_tie (by rw [exactly]; norm_num)
    rw [← next] at even
    exact (Nat.even_add_one.1 even) evenBelow

end NearestEven

/-! ## What is left behind the bits of a significand -/

/-- Whether a significand with its accuracy tells a number. -/
def Tells (significand : ℕ) (accuracy : Accuracy) (number : ℚ) : Prop :=
  match accuracy with
  | .exact => number = significand
  | .inexact .lt => significand < number ∧ number < significand + 1 / 2
  | .inexact .eq => number = significand + 1 / 2
  | .inexact .gt => significand + 1 / 2 < number ∧ number < significand + 1

namespace Tells

variable {significand : ℕ} {accuracy : Accuracy} {number : ℚ}

theorem le (tells : Tells significand accuracy number) : significand ≤ number := by
  unfold Tells at tells
  split at tells
  · exact tells.ge
  · exact tells.1.le
  · linarith
  · linarith [tells.1]

theorem lt (tells : Tells significand accuracy number) : number < significand + 1 := by
  unfold Tells at tells
  split at tells
  · linarith
  · linarith [tells.2]
  · linarith
  · exact tells.2

theorem floor_eq (tells : Tells significand accuracy number) : ⌊number⌋₊ = significand :=
  (Nat.floor_eq_iff ((Nat.cast_nonneg significand).trans tells.le)).2 ⟨tells.le, tells.lt⟩

/-- The accuracy is all that rounding needs to know. -/
theorem nearestEven (tells : Tells significand accuracy number) :
    NearestEven number (accuracy.roundToNearestEven significand) := by
  unfold Tells at tells
  split at tells
  · rw [Accuracy.roundToNearestEven, tells]
    exact nearestEven_self significand
  · have apart : |number - significand| = number - significand := abs_of_pos (by linarith)
    rw [Accuracy.roundToNearestEven]
    exact ⟨by rw [apart]; linarith, fun tie => by rw [apart] at tie; linarith⟩
  · rcases Nat.mod_two_eq_zero_or_one significand with even | odd
    · rw [Accuracy.roundToNearestEven, even, Nat.add_zero, tells]
      exact ⟨by norm_num, fun _ => Nat.even_iff.2 even⟩
    · rw [Accuracy.roundToNearestEven, odd, tells]
      refine ⟨?_, fun _ => (Nat.odd_iff.2 odd).add_one⟩
      rw [Nat.cast_succ, add_sub_add_left_eq_sub]
      norm_num
  · have apart : |number - (significand + 1 : ℕ)| = significand + 1 - number := by
      rw [Nat.cast_succ, abs_sub_comm]
      exact abs_of_pos (by linarith)
    rw [Accuracy.roundToNearestEven]
    exact ⟨by rw [apart]; linarith, fun tie => by rw [apart] at tie; linarith⟩

/-- The bit that a shift drops takes the place of the bits dropped before it. -/
theorem shiftRightOne {extended : ExtendedMantissa}
    (tells : Tells extended.mantissa extended.accuracy number) :
    Tells extended.shiftRightOne.mantissa extended.shiftRightOne.accuracy (number / 2) := by
  rcases extended with ⟨significand, roundBit, stickyBit⟩
  have halves : (significand : ℚ) = 2 * (significand / 2 : ℕ) + (significand % 2 : ℕ) := by
    exact_mod_cast (Nat.div_add_mod significand 2).symm
  rcases Nat.mod_two_eq_zero_or_one significand with even | odd
  · rw [even, Nat.cast_zero, add_zero] at halves
    cases roundBit <;> cases stickyBit <;>
      simp only [ExtendedMantissa.shiftRightOne, ExtendedMantissa.accuracy, Tells, even, halves,
        bne_self_eq_false, Bool.or_true, Bool.or_false] at tells ⊢
    · linarith
    · exact ⟨by linarith [tells.1], by linarith [tells.2]⟩
    · exact ⟨by linarith, by linarith⟩
    · exact ⟨by linarith [tells.1], by linarith [tells.2]⟩
  · rw [odd, Nat.cast_one] at halves
    have dropped : (1 != 0) = true := rfl
    cases roundBit <;> cases stickyBit <;>
      simp only [ExtendedMantissa.shiftRightOne, ExtendedMantissa.accuracy, Tells, odd, halves,
        dropped, Bool.or_true, Bool.or_false] at tells ⊢
    · linarith
    · exact ⟨by linarith [tells.1], by linarith [tells.2]⟩
    · exact ⟨by linarith, by linarith⟩
    · exact ⟨by linarith [tells.1], by linarith [tells.2]⟩

theorem shiftRight {extended : ExtendedMantissa}
    (tells : Tells extended.mantissa extended.accuracy number) (shift : ℕ) :
    Tells (extended >>> shift).mantissa (extended >>> shift).accuracy (number / 2 ^ shift) := by
  change Tells (shift.repeat ExtendedMantissa.shiftRightOne extended).mantissa
    (shift.repeat ExtendedMantissa.shiftRightOne extended).accuracy (number / 2 ^ shift)
  induction shift with
  | zero => simpa [Nat.repeat] using tells
  | succ shift ih =>
      rw [Nat.repeat, pow_succ, div_mul_eq_div_div]
      exact ih.shiftRightOne

end Tells

/-- A significand and its accuracy are kept in two residual bits. -/
theorem tells_ofMantissaAndAccuracy {significand : ℕ} {accuracy : Accuracy} {number : ℚ}
    (tells : Tells significand accuracy number) :
    Tells (ExtendedMantissa.ofMantissaAndAccuracy significand accuracy).mantissa
      (ExtendedMantissa.ofMantissaAndAccuracy significand accuracy).accuracy number := by
  cases accuracy with
  | exact => exact tells
  | inexact order => cases order <;> exact tells

/-! ## Rounding to fifty-three bits -/

theorem targetExponent_eq (significand : ℕ) (exponent : ℤ)
    (normal : -1074 ≤ significand.log2 + exponent - 52) :
    Format.binary64.targetExponent (totalExponent significand exponent) =
      significand.log2 + exponent - 52 := by
  simp only [Format.targetExponent, totalExponent, Format.mantissaBits, Format.minExponent]
  omega

theorem shiftToTargetExponent_eq {significand : ℕ} {exponent : ℤ} (enough : 52 ≤ significand.log2)
    (normal : -1074 ≤ exponent) (accuracy : Accuracy) :
    shiftToTargetExponent Format.binary64 significand exponent accuracy =
      (ExtendedMantissa.ofMantissaAndAccuracy significand accuracy >>> (significand.log2 - 52),
        exponent + (significand.log2 - 52 : ℕ)) := by
  have target := targetExponent_eq significand exponent (by omega)
  have shift : (significand.log2 + exponent - 52 - exponent).toNat = significand.log2 - 52 := by
    omega
  rw [shiftToTargetExponent, target, shiftToExponent, shift]

/-- Whether a normal significand and its exponent stand for a whole number of steps of some
size, perhaps one more than there are normal significands. -/
structure Normalizes (whole : ℕ) (step : ℤ) (significand : ℕ) (exponent : ℤ) : Prop where
  lower : 2 ^ 52 ≤ significand
  upper : significand < 2 ^ 53
  same : (significand : ℚ) * 2 ^ exponent = whole * 2 ^ step
  exponent_mem : step ≤ exponent ∧ exponent ≤ step + 1

theorem log2_eq {significand : ℕ} (lower : 2 ^ 52 ≤ significand) (upper : significand < 2 ^ 53) :
    significand.log2 = 52 :=
  (Nat.log2_eq_iff (by omega)).2 ⟨lower, upper⟩

/-- Behind the rounding, a significand is shifted once more if it has grown too long. -/
theorem exists_normalizes {whole : ℕ} {step : ℤ} (lower : 2 ^ 52 ≤ whole) (upper : whole ≤ 2 ^ 53)
    (normal : -1074 ≤ step) :
    ∃ significand exponent, Normalizes whole step significand exponent ∧
      (shiftToTargetExponent Format.binary64 whole step .exact).1.mantissa = significand ∧
      (shiftToTargetExponent Format.binary64 whole step .exact).2 = exponent := by
  rcases upper.lt_or_eq with short | rfl
  · have length := log2_eq lower short
    rw [shiftToTargetExponent_eq length.ge normal, length]
    refine ⟨whole, step, ⟨lower, short, rfl, by omega, by omega⟩, rfl, ?_⟩
    exact Int.add_zero step
  · have length : (2 ^ 53).log2 = 53 := Nat.log2_two_pow
    rw [shiftToTargetExponent_eq (by omega) normal, length]
    refine ⟨2 ^ 52, step + 1, ⟨le_rfl, by norm_num, ?_, by omega, by omega⟩, rfl, rfl⟩
    rw [zpow_add₀ two_ne_zero]
    norm_num
    ring

/-- A number is at least as long as a significand that tells it, and no longer. -/
theorem Tells.mem_binade {significand : ℕ} {accuracy : Accuracy} {number : ℚ}
    (tells : Tells significand accuracy number) (enough : 52 ≤ significand.log2) :
    2 ^ 52 ≤ number / 2 ^ (significand.log2 - 52) ∧
      number / 2 ^ (significand.log2 - 52) < 2 ^ 53 := by
  have whole : significand ≠ 0 := by
    rintro rfl
    simp at enough
  have bounds := (Nat.log2_eq_iff whole).1 rfl
  have low : ((2 ^ 52 * 2 ^ (significand.log2 - 52) : ℕ) : ℚ) ≤ significand := by
    rw [← pow_add, Nat.add_sub_cancel' enough]
    exact_mod_cast bounds.1
  have high : (significand + 1 : ℚ) ≤ (2 ^ 53 * 2 ^ (significand.log2 - 52) : ℕ) := by
    have length : 53 + (significand.log2 - 52) = significand.log2 + 1 := by omega
    rw [← pow_add, length]
    exact_mod_cast bounds.2
  have positive : (0 : ℚ) < 2 ^ (significand.log2 - 52) := pow_pos two_pos _
  push_cast at low high
  constructor
  · rw [le_div_iff₀ positive]
    exact low.trans tells.le
  · rw [div_lt_iff₀ positive]
    exact tells.lt.trans_le high

/-- A number that is told by at least fifty-three bits is rounded to the nearest multiple of
the step between the doubles around it. -/
theorem exists_nearest_of_roundWithAccuracy {significand : ℕ} {exponent : ℤ} {accuracy : Accuracy}
    {number : ℚ} (enough : 52 ≤ significand.log2) (normal : -1074 ≤ exponent)
    (tells : Tells significand accuracy number) :
    ∃ whole final finalExponent, ∃ positive : 0 < final,
      NearestEven (number / 2 ^ (significand.log2 - 52)) whole ∧
      Normalizes whole (exponent + (significand.log2 - 52 : ℕ)) final finalExponent ∧
      roundWithAccuracy Format.binary64 .positive significand exponent accuracy =
        .finite .positive final finalExponent positive := by
  have nearest := ((tells_ofMantissaAndAccuracy tells).shiftRight
    (significand.log2 - 52)).nearestEven
  have bounds := tells.mem_binade enough
  have lower := nearest.le_of_le (2 ^ 52) (by exact_mod_cast bounds.1)
  have upper := nearest.ge_of_le (2 ^ 53) (by exact_mod_cast bounds.2.le)
  rcases exists_normalizes lower upper
    (show -1074 ≤ exponent + (significand.log2 - 52 : ℕ) by omega) with
    ⟨final, finalExponent, normalizes, rfl, rfl⟩
  have positive := (Nat.two_pow_pos 52).trans_le normalizes.lower
  refine ⟨_, _, _, positive, nearest, normalizes, ?_⟩
  rw [roundWithAccuracy, shiftToTargetExponent_eq enough normal]
  exact dif_neg positive.ne'

end ScoreSynth.Binary
