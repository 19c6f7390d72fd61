import ScoreSynth.Proofs.Binary.Rounding

/-!
# Zeros in single precision

A finite number of single precision gives a zero when it is multiplied by zero, and that zero may
have either sign (`exists_mul_zero`).  Adding a zero of either sign changes no number but the
negative zero (`add_singleZero`).  Differences stay finite as long as the numbers are far below the
largest one (`isFinite_sub`).
-/

namespace ScoreSynth.Binary

open Float.Model (UnpackedFloat Format totalExponent)
open Float.Model.UnpackedFloat

/-! ## Adding and multiplying -/

/-- The zero of a sign. -/
def singleZero (sign : Sign) : Float32 :=
  .ofModel (.pack (.zero sign))

theorem add_zero_of_ne {format : Format} {number : UnpackedFloat} (sign : Sign)
    (different : number ≠ .zero .negative) : number.add format (.zero sign) = number := by
  cases number with
  | notANumber => rfl
  | infinity own => rfl
  | zero own =>
      cases own with
      | negative => exact absurd rfl different
      | positive => cases sign <;> rfl
  | finite own significand exponent positive => rfl

theorem add_singleZero {number : Float32} (sign : Sign)
    (different : number.toModel.unpack ≠ .zero .negative) : number + singleZero sign = number := by
  have made : number + singleZero sign = .ofModel (.pack (number.toModel.unpack.add
      Format.binary32 (unpack Format.binary32 (packedZero Format.binary32 sign)))) := rfl
  rw [made, unpack_packedZero, add_zero_of_ne sign different]
  exact Float32.toBits_inj.1 (UInt32.toBitVec_inj.1 (pack_unpack_of_valid number.toModel.valid))

theorem exists_mul_zero_of_isFinite (format : Format) {number : UnpackedFloat}
    (finite : number.isFinite = true) :
    ∃ sign, number.mul format (.zero .positive) = .zero sign := by
  cases number with
  | notANumber => exact absurd finite Bool.false_ne_true
  | infinity sign => exact absurd finite Bool.false_ne_true
  | zero sign => exact ⟨sign * .positive, rfl⟩
  | finite sign significand exponent positive => exact ⟨sign * .positive, rfl⟩

theorem exists_mul_zero {number : Float32} (finite : number.isFinite = true) :
    ∃ sign, number * 0 = singleZero sign := by
  obtain ⟨sign, zero⟩ := exists_mul_zero_of_isFinite Format.binary32 finite
  exact ⟨sign, congrArg (fun product => Float32.ofModel (.pack product)) zero⟩

/-! ## Numbers that are packed as finite ones -/

/-- Whether a number does not become infinite when it is packed in single precision. -/
def PacksFinite (number : UnpackedFloat) : Prop :=
  (unpack Format.binary32 (pack Format.binary32 number)).isFinite = true

theorem packsFinite_zero (sign : Sign) : PacksFinite (.zero sign) :=
  congrArg UnpackedFloat.isFinite unpack_packedZero

/-- Only a large exponent is packed as infinity. -/
theorem packsFinite_finite (sign : Sign) {significand : ℕ} {exponent : ℤ}
    (positive : 0 < significand) (high : exponent ≤ 104) :
    PacksFinite (.finite sign significand exponent positive) := by
  have biased : (exponent + Format.binary32.exponentBias +
      Format.binary32.mantissaBitsWithoutImplicit).toNat = (exponent + 150).toNat :=
    congrArg Int.toNat (Int.add_assoc exponent 127 23)
  have small : ¬ 2 ^ Format.binary32.exponentBits ≤ (exponent + 150).toNat + 1 := by
    change ¬ 256 ≤ (exponent + 150).toNat + 1
    omega
  have notOnes : BitVec.ofNat 8 (exponent + 150).toNat ≠ -1#8 := by
    intro ones
    have number := congrArg BitVec.toNat ones
    rw [BitVec.toNat_ofNat, Nat.mod_eq_of_lt (by omega)] at number
    change (exponent + 150).toNat = 255 at number
    omega
  have finite (stored : BitVec 8) (rest : BitVec 23) (proper : stored ≠ -1#8) :
      (unpack Format.binary32
        (packComponents Format.binary32 sign stored rest)).isFinite = true := by
    simp only [unpack, unpackExponent_packComponents, if_neg proper]
    split
    · split <;> rfl
    · rfl
  rw [PacksFinite]
  simp only [pack, biased, if_neg small]
  split
  · exact finite _ _ notOnes
  · exact finite _ _ (by decide)

/-! ## Rounding -/

theorem log2_lt_of_lt {number length : ℕ} (positive : 0 < length) (small : number < 2 ^ length) :
    number.log2 < length := by
  obtain rfl | some := Nat.eq_zero_or_pos number
  · rwa [Nat.log2_zero]
  · exact (Nat.log2_lt some.ne').2 small

theorem shiftLeft_lt {number length shift most : ℕ} (small : number < 2 ^ length)
    (near : shift ≤ most) : number <<< shift < 2 ^ (length + most) :=
  calc number <<< shift
    _ = number * 2 ^ shift := Nat.shiftLeft_eq number shift
    _ ≤ number * 2 ^ most := Nat.mul_le_mul_left number (Nat.pow_le_pow_right two_pos near)
    _ < 2 ^ length * 2 ^ most := Nat.mul_lt_mul_of_pos_right small (Nat.two_pow_pos most)
    _ = 2 ^ (length + most) := (Nat.pow_add 2 length most).symm

theorem snd_shiftToTargetExponent (significand : ℕ) (exponent : ℤ) (accuracy : Accuracy) :
    (shiftToTargetExponent Format.binary32 significand exponent accuracy).2 =
      max exponent (Format.binary32.targetExponent (totalExponent significand exponent)) := by
  simp only [shiftToTargetExponent, shiftToExponent]
  omega

/-- Bits are dropped and the rest is rounded, so the significand does not grow. -/
theorem roundedMantissa_le (significand : ℕ) (exponent : ℤ) :
    (shiftToTargetExponent Format.binary32 significand exponent .exact).1.roundedMantissa ≤
      significand := by
  have exact : Tells significand .exact significand := rfl
  have nearest := ((tells_ofMantissaAndAccuracy exact).shiftRight
    (Format.binary32.targetExponent (totalExponent significand exponent) -
      exponent).toNat).nearestEven
  exact nearest.ge_of_le significand
    (div_le_self (Nat.cast_nonneg significand) (one_le_pow₀ one_le_two))

theorem packsFinite_roundWithAccuracy (sign : Sign) {significand : ℕ} {exponent : ℤ}
    (small : significand < 2 ^ 63) (low : exponent ≤ 0) :
    PacksFinite (roundWithAccuracy Format.binary32 sign significand exponent .exact) := by
  have rounded := roundedMantissa_le significand exponent
  have step_eq := snd_shiftToTargetExponent significand exponent .exact
  rw [roundWithAccuracy]
  generalize shiftToTargetExponent Format.binary32 significand exponent .exact = shifted at *
  obtain ⟨mantissa, step⟩ := shifted
  have final_eq := snd_shiftToTargetExponent mantissa.roundedMantissa step .exact
  dsimp only at rounded step_eq ⊢
  split
  · exact packsFinite_zero sign
  · apply packsFinite_finite
    have length := log2_lt_of_lt (by decide) small
    have roundedLength := log2_lt_of_lt (by decide) (rounded.trans_lt small)
    rw [final_eq]
    simp only [Format.targetExponent, totalExponent, Format.mantissaBits, Format.minExponent] at *
    omega

/-- Zeros are put behind a significand that is too short, but not more than there is room for. -/
theorem packsFinite_round (sign : Sign) {significand : ℕ} {exponent : ℤ}
    (small : significand < 2 ^ 40) (low : exponent ≤ 0) :
    PacksFinite (UnpackedFloat.round Format.binary32 sign significand exponent) := by
  have near : (exponent - Format.binary32.targetExponent
      (totalExponent significand exponent)).toNat ≤ 23 := by
    simp only [Format.targetExponent, totalExponent, Format.mantissaBits, Format.minExponent]
    omega
  exact packsFinite_roundWithAccuracy sign (shiftLeft_lt small near) (by omega)

theorem packsFinite_normalize {significand exponent : ℤ} (small : significand.natAbs < 2 ^ 40)
    (low : exponent ≤ 0) (sign : Sign) :
    PacksFinite (UnpackedFloat.normalize Format.binary32 significand exponent sign) := by
  rw [UnpackedFloat.normalize]
  split
  · exact packsFinite_round .negative (by omega) low
  · exact packsFinite_zero sign
  · exact packsFinite_round .positive (by omega) low

/-! ## Differences -/

/-- Whether a number is the positive zero, or has a significand of twenty-four bits whose last one
stands for some power of two between the thirtieth and the twenty-third negative one. -/
def isModerate : UnpackedFloat → Bool
  | .zero sign => sign == .positive
  | .finite _ significand exponent _ =>
      significand < 2 ^ 24 && -30 ≤ exponent && exponent ≤ -23
  | _ => false

theorem moderate_cases {number : UnpackedFloat} (moderate : isModerate number = true) :
    number = .zero .positive ∨ ∃ sign significand exponent positive,
      number = .finite sign significand exponent positive ∧
        significand < 2 ^ 24 ∧ -30 ≤ exponent ∧ exponent ≤ -23 := by
  cases number with
  | notANumber => exact absurd moderate Bool.false_ne_true
  | infinity sign => exact absurd moderate Bool.false_ne_true
  | zero sign => exact .inl (congrArg UnpackedFloat.zero (eq_of_beq moderate))
  | finite sign significand exponent positive =>
      have bounds : significand < 2 ^ 24 ∧ -30 ≤ exponent ∧ exponent ≤ -23 := by
        simpa [isModerate, and_assoc] using moderate
      exact .inr ⟨sign, significand, exponent, positive, rfl, bounds⟩

theorem natAbs_apply (sign : Sign) (significand : ℕ) :
    (sign.apply significand : ℤ).natAbs = significand := by
  cases sign with
  | positive => exact Int.natAbs_natCast significand
  | negative => exact (Int.natAbs_neg _).trans (Int.natAbs_natCast significand)

/-- Two moderate significands are at most seven bits apart, so little is added to their length when
they are brought to the lower of both exponents. -/
theorem packsFinite_sub {minuend subtrahend : UnpackedFloat} (moderate : isModerate minuend = true)
    (otherModerate : isModerate subtrahend = true) :
    PacksFinite (minuend.sub Format.binary32 subtrahend) := by
  rcases moderate_cases moderate with
    rfl | ⟨sign, significand, exponent, positive, rfl, small, low, high⟩ <;>
  rcases moderate_cases otherModerate with
    rfl | ⟨other, otherSignificand, otherExponent, otherPositive, rfl, otherSmall, otherLow,
      otherHigh⟩
  · exact packsFinite_zero .positive
  · exact packsFinite_finite _ otherPositive (by omega)
  · exact packsFinite_finite _ positive (by omega)
  · apply packsFinite_normalize
    · have near : (exponent - min exponent otherExponent).toNat ≤ 7 := by omega
      have otherNear : (otherExponent - min exponent otherExponent).toNat ≤ 7 := by omega
      have aligned := (natAbs_apply sign _).trans_lt (shiftLeft_lt small near)
      have otherAligned := (natAbs_apply other _).trans_lt (shiftLeft_lt otherSmall otherNear)
      omega
    · omega

theorem isFinite_sub {first second : Float32} (moderate : isModerate first.toModel.unpack = true)
    (otherModerate : isModerate second.toModel.unpack = true) :
    (first - second).isFinite = true :=
  packsFinite_sub moderate otherModerate

end ScoreSynth.Binary
