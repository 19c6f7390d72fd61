import ScoreSynth.Proofs.Binary.WholeNumbers

/-!
# Fractions of doubles

A double that is finite stands for an exact number, which may be far too large or too small to
be normal.  It is below zero exactly if its number is (`lt_zero_iff`).  As a word of thirty-two
bits it is its number without the fraction, and the largest word where that does not fit
(`toNat_toUInt32`).
-/

namespace ScoreSynth.Binary

open Float.Model (UnpackedFloat Format)
open Float.Model.UnpackedFloat

variable {double : Float}

/-- The number of a significand is positive. -/
theorem significand_mul_pos {significand : ℕ} (positive : 0 < significand) (exponent : ℤ) :
    (0 : ℚ) < significand * 2 ^ exponent :=
  mul_pos (Nat.cast_pos.2 positive) (zpow_pos two_pos exponent)

/-- A finite double is a zero, or it has a significand and a sign that its number has too. -/
theorem finite_cases (finite : double.isFinite = true) :
    (∃ sign, double.toModel.unpack = .zero sign ∧ value double = 0) ∨
      ∃ significand exponent positive,
        double.toModel.unpack = .finite .positive significand exponent positive ∧
            value double = significand * 2 ^ exponent ∨
          double.toModel.unpack = .finite .negative significand exponent positive ∧
            value double = -(significand * 2 ^ exponent) := by
  change double.toModel.unpack.isFinite = true at finite
  unfold value
  cases unpacked : double.toModel.unpack with
  | notANumber => simp [unpacked, UnpackedFloat.isFinite] at finite
  | infinity sign => simp [unpacked, UnpackedFloat.isFinite] at finite
  | zero sign => exact .inl ⟨sign, rfl, rfl⟩
  | finite sign significand exponent positive =>
      refine .inr ⟨significand, exponent, positive, ?_⟩
      cases sign with
      | positive => exact .inl ⟨rfl, by simp [Sign.apply]⟩
      | negative => exact .inr ⟨rfl, by simp [Sign.apply]⟩

/-- A zero of either sign is not below zero. -/
theorem lt_zero_iff (finite : double.isFinite = true) : double < 0 ↔ value double < 0 := by
  rw [lt_iff]
  rcases finite_cases finite with ⟨sign, unpacked, valued⟩ |
    ⟨significand, exponent, positive, ⟨unpacked, valued⟩ | ⟨unpacked, valued⟩⟩
  · rw [unpacked, valued]
    exact iff_of_false (Bool.false_ne_true) (lt_irrefl 0)
  · rw [unpacked, valued]
    exact iff_of_false (Bool.false_ne_true) (significand_mul_pos positive exponent).not_gt
  · rw [unpacked, valued]
    exact iff_of_true rfl (neg_neg_of_pos (significand_mul_pos positive exponent))

/-- As a word of thirty-two bits, a double is kept at the largest one. -/
theorem toNat_toUInt32 (finite : double.isFinite = true) (nonneg : 0 ≤ value double) :
    double.toUInt32.toNat = min ⌊value double⌋₊ (2 ^ 32 - 1) := by
  have clamped (number : ℕ) : (UInt32.ofNatClamp number).toNat = min number (2 ^ 32 - 1) := by
    rw [UInt32.ofNatClamp]
    split
    · next small =>
      exact (min_eq_left (Nat.le_sub_one_of_lt small)).symm
    · next large =>
      exact (min_eq_right ((Nat.sub_le _ _).trans (not_lt.1 large))).symm
  change (UInt32.ofNatClamp (double.toModel.unpack.toInt 0 (UInt32.size - 1)).toNat).toNat = _
  rw [clamped]
  rcases finite_cases finite with ⟨sign, unpacked, valued⟩ |
    ⟨significand, exponent, positive, ⟨unpacked, valued⟩ | ⟨unpacked, valued⟩⟩
  · rw [unpacked, valued, Nat.floor_zero]
    rfl
  · rw [unpacked, valued, toInt, toNat_roundToInt]
  · rw [valued] at nonneg
    exact absurd (significand_mul_pos positive exponent) (not_lt.2 (neg_nonneg.1 nonneg))

end ScoreSynth.Binary
