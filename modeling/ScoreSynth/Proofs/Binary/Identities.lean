import ScoreSynth.Proofs.Binary.Truncation

/-!
# Operations that change nothing

A double is known from what it is unpacked to, so a normal one is known from its number.  Times
one a double stays what it is, divided by itself it is one, and a double taken from itself leaves
the positive zero.  A whole number of up to fifty-three bits comes back from a double as it was
(`toNat_toUInt64_toFloat`).
-/

namespace ScoreSynth.Binary

open Float.Model (UnpackedFloat Format)
open Float.Model.UnpackedFloat

theorem eq_of_unpack_eq {first second : Float}
    (same : first.toModel.unpack = second.toModel.unpack) : first = second :=
  Float.toBits_inj.1 (UInt64.toBitVec_inj.1
    ((unpack_inj_of_valid first.toModel.valid second.toModel.valid).1 same))

/-- What is finite leaves no negative zero when it is taken from itself. -/
theorem sub_self_of_isFinite {format : Format} {number : UnpackedFloat}
    (finite : number.isFinite = true) : number.sub format number = .zero .positive := by
  cases number with
  | notANumber => exact absurd finite Bool.false_ne_true
  | infinity sign => exact absurd finite Bool.false_ne_true
  | zero sign => cases sign <;> rfl
  | finite sign significand exponent positive =>
      simp only [UnpackedFloat.sub, Int.sub_self, UnpackedFloat.normalize]
      rfl

theorem sub_eq_zero_of_isFinite {double : Float} (finite : double.isFinite = true) :
    double - double = 0 :=
  congrArg (fun number => Float.ofModel (.pack number)) (sub_self_of_isFinite finite)

/-! ## Normal doubles -/

namespace IsNormal

variable {first second double : Float} {significand : ℕ} {exponent : ℤ}

theorem isFinite (normal : IsNormal double significand exponent) : double.isFinite = true := by
  rcases normal.unpack_eq with ⟨_, unpacked⟩
  change double.toModel.unpack.isFinite = true
  rw [unpacked]
  rfl

theorem eq (firstNormal : IsNormal first significand exponent)
    (secondNormal : IsNormal second significand exponent) : first = second := by
  rcases firstNormal.unpack_eq with ⟨_, firstUnpacked⟩
  rcases secondNormal.unpack_eq with ⟨_, secondUnpacked⟩
  exact eq_of_unpack_eq (firstUnpacked.trans secondUnpacked.symm)

theorem value_pos (normal : IsNormal double significand exponent) : 0 < value double := by
  rw [normal.value_eq]
  exact significand_mul_pos ((Nat.two_pow_pos 52).trans_le normal.lower) exponent

protected theorem mul_one (normal : IsNormal double significand exponent) (low : -1022 ≤ exponent)
    (high : exponent ≤ 969) : double * 1 = double := by
  rcases isNearest_mul normal isNormal_one (by omega) (by omega) with ⟨_, nearest, _, _⟩
  rw [value_one, mul_one, normal.value_eq] at nearest
  exact (nearest.isNormal normal.lower normal.upper).eq normal

protected theorem div_self (normal : IsNormal double significand exponent) : double / double = 1 := by
  rcases isNearest_div normal normal (by omega) (by omega) with ⟨_, nearest, _, _⟩
  have one := isNormal_one.value_eq
  rw [value_one] at one
  rw [div_self normal.value_pos.ne', one] at nearest
  exact (nearest.isNormal isNormal_one.lower isNormal_one.upper).eq isNormal_one

end IsNormal

/-! ## Whole numbers -/

section

variable {number : ℕ}

theorem toFloat_div_self (positive : 0 < number) (small : number < 2 ^ 53) :
    number.toFloat / number.toFloat = 1 :=
  (isNormal_toFloat positive small).div_self

theorem toFloat_mul_one (small : number < 2 ^ 53) : number.toFloat * 1 = number.toFloat := by
  obtain rfl | positive := Nat.eq_zero_or_pos number
  · decide
  · have length : number.log2 < 53 := (Nat.log2_lt positive.ne').2 small
    exact (isNormal_toFloat positive small).mul_one (by omega) (by omega)

theorem toFloat_sub_self (small : number < 2 ^ 53) : number.toFloat - number.toFloat = 0 := by
  obtain rfl | positive := Nat.eq_zero_or_pos number
  · decide
  · exact sub_eq_zero_of_isFinite (isNormal_toFloat positive small).isFinite

theorem toNat_toUInt64_toFloat (small : number < 2 ^ 53) :
    number.toFloat.toUInt64.toNat = number := by
  obtain rfl | positive := Nat.eq_zero_or_pos number
  · decide
  · have length : number.log2 < 53 := (Nat.log2_lt positive.ne').2 small
    rw [toNat_toUInt64 (isNormal_toFloat positive small) (by omega), value_toFloat positive small,
      Nat.floor_natCast]

end

end ScoreSynth.Binary
