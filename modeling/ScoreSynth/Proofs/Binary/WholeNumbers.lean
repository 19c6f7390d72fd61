import ScoreSynth.Binary.Truncation
import ScoreSynth.Proofs.Binary.Arithmetic

/-!
# Whole numbers as doubles

A whole number of up to thirty-two bits is a double, and a negative one is the opposite of such a
double.  Truncation gives each of them back, unless it lies outside the range that is asked for
(`truncate_ofInt`).
-/

namespace ScoreSynth.Binary

open Float.Model (UnpackedFloat Format)
open Float.Model.UnpackedFloat

/-! ## Signs of normal doubles -/

/-- Doubles are compared unpacked. -/
theorem lt_iff {first second : Float} :
    first < second ↔ first.toModel.unpack.lt second.toModel.unpack = true :=
  decide_eq_true_iff

namespace IsNormal

variable {double : Float} {significand : ℕ} {exponent : ℤ}

/-- A double that is normal and positive is not below zero. -/
theorem not_lt_zero (normal : IsNormal double significand exponent) : ¬ double < 0 := by
  obtain ⟨positive, unpacked⟩ := normal.unpack_eq
  rw [lt_iff, unpacked]
  exact Bool.false_ne_true

/-- The opposite of a normal double has the same significand. -/
theorem unpack_neg (normal : IsNormal double significand exponent) (low : -1074 ≤ exponent)
    (high : exponent ≤ 971) :
    ∃ positive, (-double).toModel.unpack = .finite .negative significand exponent positive := by
  obtain ⟨positive, unpacked⟩ := normal.unpack_eq
  refine ⟨positive, ?_⟩
  change unpack Format.binary64 (pack Format.binary64 double.toModel.unpack.neg) = _
  rw [unpacked]
  exact unpack_pack .negative normal.lower normal.upper low high positive

theorem neg_lt_zero (normal : IsNormal double significand exponent) (low : -1074 ≤ exponent)
    (high : exponent ≤ 971) : -double < 0 := by
  obtain ⟨positive, unpacked⟩ := normal.unpack_neg low high
  rw [lt_iff, unpacked]
  rfl

theorem neg_neg (normal : IsNormal double significand exponent) (low : -1074 ≤ exponent)
    (high : exponent ≤ 971) : IsNormal (-(-double)) significand exponent := by
  obtain ⟨positive, unpacked⟩ := normal.unpack_neg low high
  have opposite : -(-double) = .ofModel (.pack (.finite .positive significand exponent positive)) := by
    change Float.ofModel (.pack (-double).toModel.unpack.neg) = _
    rw [unpacked]
    rfl
  rw [opposite]
  exact isNormal_ofModel_pack normal.lower normal.upper low high positive

end IsNormal

/-! ## Truncation -/

/-- A whole number within the range is left as it is. -/
theorem truncate_ofInt {lowest highest number : ℤ} (least : lowest ≤ number)
    (most : number ≤ highest) (small : number.natAbs < 2 ^ 32) :
    truncate lowest highest (Float.ofInt number) = number := by
  cases number with
  | ofNat magnitude =>
      change truncate lowest highest magnitude.toFloat = magnitude
      obtain rfl | positive := Nat.eq_zero_or_pos magnitude
      · have zero : ¬ Nat.toFloat 0 < 0 := by decide
        have word : (Nat.toFloat 0).toUInt64.toNat = 0 := by decide
        rw [truncate, if_neg zero, word]
        exact min_eq_right most
      · obtain ⟨same, _, _, normal, low, high⟩ := exists_isNormal_toFloat magnitude positive small
        rw [truncate, if_neg normal.not_lt_zero, toNat_toUInt64 normal (by omega), same,
          Nat.floor_natCast]
        exact min_eq_right most
  | negSucc predecessor =>
      change truncate lowest highest (-(predecessor + 1).toFloat) = _
      obtain ⟨same, _, _, normal, low, high⟩ :=
        exists_isNormal_toFloat (predecessor + 1) predecessor.succ_pos small
      have opposite := normal.neg_neg (by omega) (by omega)
      have value_eq := opposite.value_eq.trans normal.value_eq.symm
      rw [truncate, if_pos (normal.neg_lt_zero (by omega) (by omega)),
        toNat_toUInt64 opposite (by omega), value_eq, same, Nat.floor_natCast, Int.negSucc_eq]
      exact max_eq_right least

end ScoreSynth.Binary
