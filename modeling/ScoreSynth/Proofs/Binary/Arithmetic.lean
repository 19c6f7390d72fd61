import ScoreSynth.Proofs.Binary.Rounding

/-!
# Arithmetic on doubles

Positive normal doubles stand for exact numbers.  Whole numbers of up to fifty-three bits
become doubles without loss, and the products and quotients of doubles are the doubles
nearest to the exact ones (`isNearest_mul`, `isNearest_div`).
-/

namespace ScoreSynth.Binary

open Float.Model (UnpackedFloat Format totalExponent)
open Float.Model.UnpackedFloat

/-! ## Normal doubles -/

/-- The leading bit of a normal significand is not stored. -/
theorem toNat_append_ofNat {significand : ℕ} (lower : 2 ^ 52 ≤ significand)
    (upper : significand < 2 ^ 53) :
    (1#1 ++ BitVec.ofNat 52 significand).toNat = significand := by
  have stored : significand % 2 ^ 52 < 2 ^ 52 := Nat.mod_lt _ (Nat.two_pow_pos 52)
  have leading : (1#1).toNat <<< 52 = 2 ^ 52 := rfl
  have shorter : (BitVec.ofNat 52 significand).toNat = significand % 2 ^ 52 :=
    BitVec.toNat_ofNat significand 52
  rw [BitVec.toNat_append, shorter, ← Nat.shiftLeft_add_eq_or_of_lt stored, leading]
  omega

/-- Packing loses nothing of a normal double. -/
theorem unpack_pack {significand : ℕ} {exponent : ℤ} (sign : Sign)
    (lower : 2 ^ 52 ≤ significand) (upper : significand < 2 ^ 53) (low : -1074 ≤ exponent)
    (high : exponent ≤ 971) (positive : 0 < significand) :
    unpack Format.binary64
        (pack Format.binary64 (.finite sign significand exponent positive)) =
      .finite sign significand exponent positive := by
  have biased : (exponent + Format.binary64.exponentBias +
      Format.binary64.mantissaBitsWithoutImplicit).toNat = (exponent + 1075).toNat :=
    congrArg Int.toNat (Int.add_assoc exponent 1023 52)
  have finite : ¬ 2 ^ Format.binary64.exponentBits ≤ (exponent + 1075).toNat + 1 := by
    change ¬ 2048 ≤ (exponent + 1075).toNat + 1
    omega
  have length : significand.log2 + 1 = Format.binary64.mantissaBits :=
    congrArg (· + 1) (log2_eq lower upper)
  have stored : (BitVec.ofNat 11 (exponent + 1075).toNat).toNat = (exponent + 1075).toNat := by
    rw [BitVec.toNat_ofNat]
    exact Nat.mod_eq_of_lt (by omega)
  have notOnes : BitVec.ofNat 11 (exponent + 1075).toNat ≠ -1#11 := by
    intro ones
    have number := congrArg BitVec.toNat ones
    rw [stored] at number
    change (exponent + 1075).toNat = 2047 at number
    omega
  have notZeros : BitVec.ofNat 11 (exponent + 1075).toNat ≠ 0#11 := by
    intro zeros
    have number := congrArg BitVec.toNat zeros
    rw [stored] at number
    change (exponent + 1075).toNat = 0 at number
    omega
  have unbiased : ((exponent + 1075).toNat : ℤ) - (Format.binary64.exponentBias +
      Format.binary64.mantissaBitsWithoutImplicit) = exponent := by
    change ((exponent + 1075).toNat : ℤ) - (1023 + 52) = exponent
    omega
  simp only [pack, biased, if_neg finite, if_pos length, unpack, unpackMantissa_packComponents,
    unpackExponent_packComponents, unpackSign_packComponents, Sign.ofBitVec_toBitVec,
    if_neg notOnes, if_neg notZeros, stored, unbiased, toNat_append_ofNat lower upper]

/-- The number that a finite double stands for. -/
def value (double : Float) : ℚ :=
  match double.toModel.unpack with
  | .finite sign significand exponent _ => (sign.apply significand : ℤ) * 2 ^ exponent
  | _ => 0

/-- Whether a double is positive and has a significand of fifty-three bits. -/
structure IsNormal (double : Float) (significand : ℕ) (exponent : ℤ) : Prop where
  unpack_eq : ∃ positive, double.toModel.unpack = .finite .positive significand exponent positive
  lower : 2 ^ 52 ≤ significand
  upper : significand < 2 ^ 53

theorem IsNormal.value_eq {double : Float} {significand : ℕ} {exponent : ℤ}
    (normal : IsNormal double significand exponent) :
    value double = significand * 2 ^ exponent := by
  rcases normal.unpack_eq with ⟨positive, unpacked⟩
  rw [value, unpacked]
  rfl

theorem isNormal_ofModel_pack {significand : ℕ} {exponent : ℤ} (lower : 2 ^ 52 ≤ significand)
    (upper : significand < 2 ^ 53) (low : -1074 ≤ exponent) (high : exponent ≤ 971)
    (positive : 0 < significand) :
    IsNormal (.ofModel (.pack (.finite .positive significand exponent positive)))
      significand exponent :=
  ⟨⟨positive, unpack_pack .positive lower upper low high positive⟩, lower, upper⟩

/-! ## Nearest doubles -/

/-- Whether a double is the nearest one to a positive number, where the doubles around the
number are multiples of two to the power of `step`. -/
structure IsNearest (number : ℚ) (double : Float) (step : ℤ) : Prop where
  lower : 2 ^ 52 ≤ number / 2 ^ step
  upper : number / 2 ^ step < 2 ^ 53
  nearest : ∃ whole : ℕ, NearestEven (number / 2 ^ step) whole ∧ value double = whole * 2 ^ step
  normal : ∃ significand exponent, IsNormal double significand exponent ∧
    step ≤ exponent ∧ exponent ≤ step + 1

theorem isNearest_of_roundWithAccuracy {significand : ℕ} {exponent : ℤ} {accuracy : Accuracy}
    {scaled : ℚ} (enough : 52 ≤ significand.log2) (low : -1074 ≤ exponent)
    (high : exponent + significand.log2 ≤ 1022) (tells : Tells significand accuracy scaled) :
    IsNearest (scaled * 2 ^ exponent)
      (.ofModel (.pack (roundWithAccuracy Format.binary64 .positive significand exponent accuracy)))
      (exponent + (significand.log2 - 52 : ℕ)) := by
  have shifted : scaled * 2 ^ exponent / 2 ^ (exponent + (significand.log2 - 52 : ℕ)) =
      scaled / 2 ^ (significand.log2 - 52) := by
    rw [zpow_add₀ two_ne_zero, zpow_natCast, mul_comm scaled,
      mul_div_mul_left _ _ (zpow_ne_zero exponent two_ne_zero)]
  have bounds := tells.mem_binade enough
  rcases exists_nearest_of_roundWithAccuracy enough low tells with
    ⟨whole, final, finalExponent, positive, nearest, normalizes, rounded⟩
  have least := normalizes.exponent_mem.1
  have most := normalizes.exponent_mem.2
  have normal := isNormal_ofModel_pack normalizes.lower normalizes.upper
    (by omega : -1074 ≤ finalExponent) (by omega) positive
  rw [rounded]
  refine ⟨?_, ?_, ⟨whole, ?_, ?_⟩, ⟨final, finalExponent, normal, normalizes.exponent_mem⟩⟩
  · rw [shifted]
    exact bounds.1
  · rw [shifted]
    exact bounds.2
  · rw [shifted]
    exact nearest
  · rw [normal.value_eq, normalizes.same]

namespace IsNearest

variable {number : ℚ} {double : Float} {step : ℤ}

/-- A whole number is a multiple of every negative power of two. -/
theorem natural_eq (integral : step ≤ 0) (bound : ℕ) :
    (bound : ℚ) = (bound * 2 ^ step.natAbs : ℕ) * 2 ^ step := by
  have inverse : (2 : ℚ) ^ step.natAbs * 2 ^ step = 1 := by
    rw [← zpow_natCast, ← zpow_add₀ two_ne_zero, Int.ofNat_natAbs_of_nonpos integral,
      neg_add_cancel, zpow_zero]
  rw [Nat.cast_mul, Nat.cast_pow, Nat.cast_ofNat, mul_assoc, inverse, mul_one]

/-- Rounding does not carry a number below a whole number. -/
theorem natural_le (nearest : IsNearest number double step) (integral : step ≤ 0) (bound : ℕ)
    (below : bound ≤ number) : bound ≤ value double := by
  rcases nearest.nearest with ⟨whole, rounded, valued⟩
  have positive : (0 : ℚ) < 2 ^ step := zpow_pos two_pos step
  rw [natural_eq integral bound, ← le_div_iff₀ positive] at below
  rw [valued, natural_eq integral bound]
  have least : (bound * 2 ^ step.natAbs : ℕ) ≤ whole := rounded.le_of_le _ below
  exact mul_le_mul_of_nonneg_right (by exact_mod_cast least) positive.le

/-- Rounding does not carry a number above a whole number. -/
theorem le_natural (nearest : IsNearest number double step) (integral : step ≤ 0) (bound : ℕ)
    (above : number ≤ bound) : value double ≤ bound := by
  rcases nearest.nearest with ⟨whole, rounded, valued⟩
  have positive : (0 : ℚ) < 2 ^ step := zpow_pos two_pos step
  rw [natural_eq integral bound, ← div_le_iff₀ positive] at above
  rw [valued, natural_eq integral bound]
  have most : whole ≤ (bound * 2 ^ step.natAbs : ℕ) := rounded.ge_of_le _ above
  exact mul_le_mul_of_nonneg_right (by exact_mod_cast most) positive.le

/-- Small numbers lie among doubles that are less than one apart. -/
theorem step_neg (nearest : IsNearest number double step) (small : number < 2 ^ 52) :
    step < 0 := by
  have positive : (0 : ℚ) < 2 ^ step := zpow_pos two_pos step
  have lower := ((le_div_iff₀ positive).1 nearest.lower).trans_lt small
  have part : (2 : ℚ) ^ step < 1 := (mul_lt_iff_lt_one_right (by norm_num)).1 lower
  by_contra whole
  exact absurd part (not_lt.2 (one_le_zpow₀ one_le_two (not_lt.1 whole)))

theorem half_step (step : ℤ) : (2 : ℚ) ^ step / 2 = 1 / 2 * 2 ^ step := by
  ring

/-- Rounding changes a number by at most half a step. -/
theorem distance (nearest : IsNearest number double step) :
    |value double - number| ≤ 2 ^ step / 2 := by
  rcases nearest.nearest with ⟨whole, rounded, valued⟩
  have positive : (0 : ℚ) < 2 ^ step := zpow_pos two_pos step
  have apart : value double - number = (whole - number / 2 ^ step) * 2 ^ step := by
    rw [valued, sub_mul, div_mul_cancel₀ _ positive.ne']
  rw [apart, abs_mul, abs_of_pos positive, abs_sub_comm, half_step]
  exact mul_le_mul_of_nonneg_right rounded.distance positive.le

/-- Half a step is a small part of the number. -/
theorem relative (nearest : IsNearest number double step) :
    |value double - number| ≤ number / 2 ^ 53 := by
  have positive : (0 : ℚ) < 2 ^ step := zpow_pos two_pos step
  have lower := (le_div_iff₀ positive).1 nearest.lower
  refine nearest.distance.trans ?_
  rw [div_le_div_iff₀ two_pos (by norm_num)]
  linarith

/-- Which numbers below a whole number are rounded up to it: those that are not further away
than half a step between the doubles below it. -/
theorem value_eq_iff (nearest : IsNearest number double step) (integral : step < 0) {bound : ℕ}
    (below : number < bound) : value double = bound ↔ bound - number ≤ 2 ^ step / 2 := by
  rcases nearest.nearest with ⟨whole, rounded, valued⟩
  have positive : (0 : ℚ) < 2 ^ step := zpow_pos two_pos step
  have even : Even (bound * 2 ^ step.natAbs) := by
    refine Even.mul_left (Even.pow_of_ne_zero even_two ?_) bound
    omega
  have scaled := natural_eq integral.le bound
  have under : number / 2 ^ step < (bound * 2 ^ step.natAbs : ℕ) := by
    rw [div_lt_iff₀ positive, ← scaled]
    exact below
  have apart : (bound : ℚ) - number =
      ((bound * 2 ^ step.natAbs : ℕ) - number / 2 ^ step) * 2 ^ step := by
    rw [sub_mul, ← scaled, div_mul_cancel₀ _ positive.ne']
  rw [valued, apart, half_step, mul_le_mul_iff_left₀ positive,
    ← rounded.eq_iff_of_even even under]
  nth_rewrite 1 [scaled]
  rw [mul_left_inj' positive.ne', Nat.cast_inj]

end IsNearest

/-- The step between the doubles around a number is known from the number. -/
theorem step_le_of_mem_binade {number : ℚ} {first second : ℤ}
    (lower : 2 ^ 52 ≤ number / 2 ^ first) (upper : number / 2 ^ second < 2 ^ 53) :
    first ≤ second := by
  rw [le_div_iff₀ (zpow_pos two_pos first)] at lower
  rw [div_lt_iff₀ (zpow_pos two_pos second)] at upper
  have bounds : (2 : ℚ) ^ (52 + first) < 2 ^ (53 + second) := by
    rw [zpow_add₀ two_ne_zero, zpow_add₀ two_ne_zero]
    exact_mod_cast lower.trans_lt upper
  have exponents := (zpow_lt_zpow_iff_right₀ (one_lt_two : (1 : ℚ) < 2)).1 bounds
  omega

/-- A number with a normal significand is its own nearest double. -/
theorem IsNearest.isNormal {double : Float} {step : ℤ} {significand : ℕ} {exponent : ℤ}
    (nearest : IsNearest (significand * 2 ^ exponent) double step)
    (lower : 2 ^ 52 ≤ significand) (upper : significand < 2 ^ 53) :
    IsNormal double significand exponent := by
  have scaled : (significand * 2 ^ exponent : ℚ) / 2 ^ exponent = significand :=
    mul_div_cancel_right₀ _ (zpow_ne_zero exponent two_ne_zero)
  have same : step = exponent := by
    apply le_antisymm
    · exact step_le_of_mem_binade nearest.lower (by rw [scaled]; exact_mod_cast upper)
    · exact step_le_of_mem_binade (by rw [scaled]; exact_mod_cast lower) nearest.upper
  subst same
  rcases nearest.nearest with ⟨whole, rounded, valued⟩
  rw [scaled] at rounded
  have unchanged : whole = significand :=
    le_antisymm (rounded.ge_of_le significand le_rfl) (rounded.le_of_le significand le_rfl)
  subst unchanged
  rcases nearest.normal with ⟨final, finalExponent, normal, least, most⟩
  have numbers : (final : ℚ) * 2 ^ finalExponent = whole * 2 ^ step :=
    normal.value_eq.symm.trans valued
  rcases least.eq_or_lt with rfl | less
  · have equal := mul_right_cancel₀ (zpow_ne_zero step two_ne_zero) numbers
    rwa [Nat.cast_inj.1 equal] at normal
  · -- One step further the significand would be half as large, and too short.
    obtain rfl : finalExponent = step + 1 := by omega
    rw [zpow_add_one₀ two_ne_zero, mul_comm ((2 : ℚ) ^ step), ← mul_assoc] at numbers
    have equal := mul_right_cancel₀ (zpow_ne_zero step two_ne_zero) numbers
    have twice : final * 2 = whole := by exact_mod_cast equal
    have long := normal.lower
    omega

/-! ## Operations -/

section

variable {first second : Float} {left right : ℕ} {leftExponent rightExponent : ℤ}

/-- A product is the double nearest to the exact one. -/
theorem isNearest_mul (leftNormal : IsNormal first left leftExponent)
    (rightNormal : IsNormal second right rightExponent) (low : -1074 ≤ leftExponent + rightExponent)
    (high : leftExponent + rightExponent ≤ 917) :
    ∃ step, IsNearest (value first * value second) (first * second) step ∧
      leftExponent + rightExponent + 52 ≤ step ∧ step ≤ leftExponent + rightExponent + 53 := by
  rcases leftNormal.unpack_eq with ⟨leftPositive, leftUnpacked⟩
  rcases rightNormal.unpack_eq with ⟨rightPositive, rightUnpacked⟩
  have made : first * second = .ofModel (.pack (roundWithAccuracy Format.binary64 .positive
      (left * right) (leftExponent + rightExponent) .exact)) := by
    change Float.ofModel (.pack (UnpackedFloat.mul Format.binary64 first.toModel.unpack
      second.toModel.unpack)) = _
    rw [leftUnpacked, rightUnpacked]
    rfl
  have exact : Tells (left * right) .exact ((left * right : ℕ) : ℚ) := rfl
  have positive : left * right ≠ 0 := (Nat.mul_pos leftPositive rightPositive).ne'
  have least : 104 ≤ (left * right).log2 := (Nat.le_log2 positive).2
    ((by norm_num : 2 ^ 104 = 2 ^ 52 * 2 ^ 52).le.trans
      (Nat.mul_le_mul leftNormal.lower rightNormal.lower))
  have most : (left * right).log2 < 106 := (Nat.log2_lt positive).2
    ((Nat.mul_lt_mul'' leftNormal.upper rightNormal.upper).trans_le (by norm_num))
  have product : value first * value second =
      ((left * right : ℕ) : ℚ) * 2 ^ (leftExponent + rightExponent) := by
    rw [leftNormal.value_eq, rightNormal.value_eq, zpow_add₀ two_ne_zero, Nat.cast_mul]
    ring
  have nearest := isNearest_of_roundWithAccuracy (by omega) low (by omega) exact
  rw [← made, ← product] at nearest
  exact ⟨_, nearest, by omega, by omega⟩

/-- What a division leaves says how far the quotient is below the exact one. -/
theorem tells_accuracyOfFraction (dividend : ℕ) {divisor : ℕ} (positive : 0 < divisor) :
    Tells (dividend / divisor) (accuracyOfFraction (dividend % divisor) divisor)
      (dividend / divisor : ℚ) := by
  have denominator : (0 : ℚ) < divisor := by exact_mod_cast positive
  have parts : (dividend / divisor : ℚ) =
      (dividend / divisor : ℕ) + (dividend % divisor : ℕ) / divisor := by
    rw [div_eq_iff denominator.ne', add_mul, div_mul_cancel₀ _ denominator.ne']
    exact_mod_cast (Nat.div_add_mod' dividend divisor).symm
  have proper := Nat.mod_lt dividend positive
  rw [parts]
  generalize dividend % divisor = rest at proper
  generalize dividend / divisor = quotient
  have below : (rest / divisor : ℚ) < 1 := (div_lt_one denominator).2 (by exact_mod_cast proper)
  rw [accuracyOfFraction]
  split
  · next none =>
      subst none
      simp [Tells]
  · next some =>
      have above : (0 : ℚ) < rest / divisor :=
        div_pos (by exact_mod_cast Nat.pos_of_ne_zero some) denominator
      rcases lt_trichotomy (2 * rest) divisor with less | same | more
      · have half : (rest / divisor : ℚ) < 1 / 2 := by
          rw [div_lt_div_iff₀ denominator two_pos]
          exact_mod_cast (by omega : rest * 2 < 1 * divisor)
        rw [Nat.compare_eq_lt.2 less]
        exact ⟨by linarith, by linarith⟩
      · have half : (rest / divisor : ℚ) = 1 / 2 := by
          rw [div_eq_div_iff denominator.ne' two_ne_zero]
          exact_mod_cast (by omega : rest * 2 = 1 * divisor)
        rw [Nat.compare_eq_eq.2 same]
        exact congrArg ((quotient : ℚ) + ·) half
      · have half : (1 / 2 : ℚ) < rest / divisor := by
          rw [div_lt_div_iff₀ two_pos denominator]
          exact_mod_cast (by omega : 1 * divisor < rest * 2)
        rw [Nat.compare_eq_gt.2 more]
        exact ⟨by linarith, by linarith⟩

/-- The significands of normal doubles are divided with fifty-three more bits. -/
theorem divCore_eq (leftNormal : IsNormal first left leftExponent)
    (rightNormal : IsNormal second right rightExponent)
    (low : -1021 ≤ leftExponent - rightExponent) :
    divCore Format.binary64 left leftExponent right rightExponent =
      (left * 2 ^ 53 / right, leftExponent - rightExponent - 53,
        accuracyOfFraction (left * 2 ^ 53 % right) right) := by
  have leftLength := log2_eq leftNormal.lower leftNormal.upper
  have rightLength := log2_eq rightNormal.lower rightNormal.upper
  have target : Format.binary64.targetExponent (totalExponent left leftExponent -
      totalExponent right rightExponent) = leftExponent - rightExponent - 53 := by
    simp only [Format.targetExponent, totalExponent, Format.mantissaBits, Format.minExponent,
      leftLength, rightLength]
    omega
  have least : min (leftExponent - rightExponent) (leftExponent - rightExponent - 53) =
      leftExponent - rightExponent - 53 := by omega
  have shift : (leftExponent - rightExponent - (leftExponent - rightExponent - 53)).toNat = 53 := by
    omega
  simp only [divCore, target, least, shift, Nat.shiftLeft_eq]

/-- A quotient is the double nearest to the exact one. -/
theorem isNearest_div (leftNormal : IsNormal first left leftExponent)
    (rightNormal : IsNormal second right rightExponent)
    (low : -1021 ≤ leftExponent - rightExponent) (high : leftExponent - rightExponent ≤ 1000) :
    ∃ step, IsNearest (value first / value second) (first / second) step ∧
      leftExponent - rightExponent - 53 ≤ step ∧ step ≤ leftExponent - rightExponent - 52 := by
  rcases leftNormal.unpack_eq with ⟨leftPositive, leftUnpacked⟩
  rcases rightNormal.unpack_eq with ⟨rightPositive, rightUnpacked⟩
  have made : first / second = .ofModel (.pack (roundWithAccuracy Format.binary64 .positive
      (left * 2 ^ 53 / right) (leftExponent - rightExponent - 53)
      (accuracyOfFraction (left * 2 ^ 53 % right) right))) := by
    change Float.ofModel (.pack (UnpackedFloat.div Format.binary64 first.toModel.unpack
      second.toModel.unpack)) = _
    rw [leftUnpacked, rightUnpacked, UnpackedFloat.div, divCore_eq leftNormal rightNormal low]
    rfl
  have tells := tells_accuracyOfFraction (left * 2 ^ 53) rightPositive
  have enough : 2 ^ 52 ≤ left * 2 ^ 53 / right := by
    rw [Nat.le_div_iff_mul_le rightPositive]
    have upper := rightNormal.upper
    have lower := leftNormal.lower
    omega
  have few : left * 2 ^ 53 / right < 2 ^ 54 := by
    rw [Nat.div_lt_iff_lt_mul rightPositive]
    have upper := leftNormal.upper
    have lower := rightNormal.lower
    omega
  have positive : left * 2 ^ 53 / right ≠ 0 := by omega
  have least := (Nat.le_log2 positive).2 enough
  have most := (Nat.log2_lt positive).2 few
  have quotient : value first / value second = ((left * 2 ^ 53 : ℕ) / right : ℚ) *
      2 ^ (leftExponent - rightExponent - 53) := by
    rw [leftNormal.value_eq, rightNormal.value_eq, zpow_sub₀ two_ne_zero, zpow_sub₀ two_ne_zero]
    push_cast
    field_simp
  have small : -1074 ≤ leftExponent - rightExponent - 53 := by omega
  have nearest := isNearest_of_roundWithAccuracy least small (by omega) tells
  rw [← made, ← quotient] at nearest
  exact ⟨_, nearest, by omega, by omega⟩

end

/-! ## Whole numbers -/

/-- A number is brought to fifty-three bits by zeros behind it. -/
theorem filled_mem {number : ℕ} (positive : 0 < number) (small : number < 2 ^ 53) :
    2 ^ 52 ≤ number * 2 ^ (52 - number.log2) ∧ number * 2 ^ (52 - number.log2) < 2 ^ 53 := by
  have length : number.log2 < 53 := (Nat.log2_lt positive.ne').2 small
  have bounds := (Nat.log2_eq_iff positive.ne').1 rfl
  have whole : 2 ^ 52 = 2 ^ number.log2 * 2 ^ (52 - number.log2) := by
    rw [← pow_add]
    congr 1
    omega
  constructor
  · rw [whole]
    exact Nat.mul_le_mul_right _ bounds.1
  · rw [pow_succ, whole, mul_right_comm, ← pow_succ]
    exact Nat.mul_lt_mul_of_pos_right bounds.2 (Nat.two_pow_pos _)

/-- The zeros are a factor that a smaller exponent makes up for. -/
theorem filled_mul {number : ℕ} (short : number.log2 < 53) :
    ((number * 2 ^ (52 - number.log2) : ℕ) : ℚ) * 2 ^ ((number.log2 : ℤ) - 52) = number := by
  have exponent : (number.log2 : ℤ) - 52 = -(52 - number.log2 : ℕ) := by omega
  rw [Nat.cast_mul, Nat.cast_pow, Nat.cast_ofNat, exponent, zpow_neg, zpow_natCast,
    mul_inv_cancel_right₀ (pow_ne_zero _ two_ne_zero)]

theorem isNearest_toUInt64_toFloat {number : ℕ} (positive : 0 < number)
    (small : number < 2 ^ 53) :
    IsNearest number number.toUInt64.toFloat (number.log2 - 52) := by
  have length : number.log2 < 53 := (Nat.log2_lt positive.ne').2 small
  have target : Format.binary64.targetExponent (totalExponent number 0) = number.log2 - 52 := by
    rw [targetExponent_eq number 0 (by omega)]
    omega
  have shift : (0 - ((number.log2 : ℤ) - 52)).toNat = 52 - number.log2 := by omega
  have exponent : (0 : ℤ) - (52 - number.log2 : ℕ) = number.log2 - 52 := by omega
  have word : number.toUInt64.toNat = number := Nat.mod_eq_of_lt (by omega)
  have sign : compare (number : ℤ) 0 = .gt := Int.compare_eq_gt.2 (by omega)
  have made : number.toUInt64.toFloat = .ofModel (.pack (roundWithAccuracy Format.binary64
      .positive (number * 2 ^ (52 - number.log2)) (number.log2 - 52) .exact)) := by
    change Float.ofModel (.pack (ofInt Format.binary64 number.toUInt64.toNat)) = _
    rw [word, UnpackedFloat.ofInt, UnpackedFloat.normalize, sign]
    simp only [UnpackedFloat.round, target, decreaseExponent, shift, exponent, Nat.shiftLeft_eq,
      Int.toNat_natCast]
  have filled := filled_mem positive small
  have exact : Tells (number * 2 ^ (52 - number.log2)) .exact
      ((number * 2 ^ (52 - number.log2) : ℕ) : ℚ) := rfl
  have bits := log2_eq filled.1 filled.2
  have nearest := isNearest_of_roundWithAccuracy bits.ge (by omega : -1074 ≤ (number.log2 : ℤ) - 52)
    (by omega) exact
  rw [← made, filled_mul length, bits] at nearest
  simpa using nearest

/-- The double that stands for one. -/
theorem isNormal_one : IsNormal 1 (2 ^ 52) (-52) :=
  ⟨⟨by decide, rfl⟩, le_rfl, by norm_num⟩

theorem value_one : value 1 = 1 := by
  rw [isNormal_one.value_eq]
  norm_num

/-- A whole number is read as one with no decimals, which are a factor of one. -/
theorem toFloat_eq {number : ℕ} (small : number < 2 ^ 53) :
    number.toFloat = number.toUInt64.toFloat * 1 :=
  dif_pos ⟨small, by decide⟩

/-- A whole number of up to fifty-three bits is a double. -/
theorem isNormal_toFloat {number : ℕ} (positive : 0 < number) (small : number < 2 ^ 53) :
    IsNormal number.toFloat (number * 2 ^ (52 - number.log2)) (number.log2 - 52) := by
  have length : number.log2 < 53 := (Nat.log2_lt positive.ne').2 small
  have filled := filled_mem positive small
  have converted := isNearest_toUInt64_toFloat positive small
  rw [← filled_mul length] at converted
  have normal := converted.isNormal filled.1 filled.2
  rcases isNearest_mul normal isNormal_one (by omega) (by omega) with ⟨step, nearest, _, _⟩
  rw [value_one, mul_one, ← toFloat_eq small, normal.value_eq] at nearest
  exact nearest.isNormal filled.1 filled.2

theorem value_toFloat {number : ℕ} (positive : 0 < number) (small : number < 2 ^ 53) :
    value number.toFloat = number := by
  rw [(isNormal_toFloat positive small).value_eq,
    filled_mul ((Nat.log2_lt positive.ne').2 small)]

/-- A whole number of up to thirty-two bits has an exponent that leaves room for products and
quotients. -/
theorem exists_isNormal_toFloat (number : ℕ) (positive : 0 < number) (small : number < 2 ^ 32) :
    value number.toFloat = number ∧
      ∃ significand exponent, IsNormal number.toFloat significand exponent ∧
        -52 ≤ exponent ∧ exponent ≤ -18 := by
  have length : number.log2 < 32 := (Nat.log2_lt positive.ne').2 small
  have short : number < 2 ^ 53 := by omega
  exact ⟨value_toFloat positive short, _, _, isNormal_toFloat positive short, by omega, by omega⟩

/-- The bits behind the point are dropped, however many there are. -/
theorem toNat_roundToInt (significand : ℕ) (exponent : ℤ) :
    (roundToInt .positive significand exponent).toNat = ⌊(significand * 2 ^ exponent : ℚ)⌋₊ := by
  have exact : Tells (significand <<< exponent.toNat) .exact
      ((significand <<< exponent.toNat : ℕ) : ℚ) := rfl
  have dropped := ((tells_ofMantissaAndAccuracy exact).shiftRight
    (0 - (exponent - exponent.toNat)).toNat).floor_eq
  have parts : exponent = exponent.toNat - (0 - (exponent - exponent.toNat)).toNat := by omega
  have scaled : (significand * 2 ^ exponent : ℚ) =
      (significand <<< exponent.toNat : ℕ) / 2 ^ (0 - (exponent - exponent.toNat)).toNat := by
    rw [Nat.shiftLeft_eq, Nat.cast_mul, Nat.cast_pow, Nat.cast_ofNat, mul_div_assoc]
    nth_rewrite 1 [parts]
    rw [zpow_sub₀ two_ne_zero, zpow_natCast, zpow_natCast]
  rw [scaled, dropped]
  simp only [roundToInt, decreaseExponent, shiftToExponent, sub_zero]
  rfl

/-- The fraction of a normal double is dropped. -/
theorem toNat_toUInt64 {double : Float} {significand : ℕ} {exponent : ℤ}
    (normal : IsNormal double significand exponent) (integral : exponent ≤ 0) :
    double.toUInt64.toNat = ⌊value double⌋₊ := by
  rcases normal.unpack_eq with ⟨positive, unpacked⟩
  have most : value double ≤ significand := by
    rw [normal.value_eq]
    exact mul_le_of_le_one_right (Nat.cast_nonneg significand)
      (zpow_le_one_of_nonpos₀ one_le_two integral)
  have small : ⌊value double⌋₊ < UInt64.size :=
    calc ⌊value double⌋₊
      _ ≤ significand := (Nat.floor_le_floor most).trans_eq (Nat.floor_natCast significand)
      _ < UInt64.size := normal.upper.trans (by decide)
  change (UInt64.ofNatClamp (double.toModel.unpack.toInt 0 (UInt64.size - 1)).toNat).toNat = _
  rw [unpacked, toInt, toNat_roundToInt, ← normal.value_eq, UInt64.ofNatClamp, dif_pos small]
  rfl

end ScoreSynth.Binary
