import ScoreSynth.Note
import ScoreSynth.Proofs.Binary.Arithmetic
import ScoreSynth.Proofs.Note
import ScoreSynth.Tempo

/-!
# Tempo and durations

A written duration is multiplied by the double nearest to the exact factor, and the product
is rounded once more.  Together these two errors are far smaller than the distance of a
fraction from the whole numbers around it, so a duration that is no whole number of
milliseconds is truncated as it should be.  One that is a whole number can come out a
millisecond too short: exactly when the multiplier falls short of the factor by more than
the second rounding makes up for (`ofToken_multiplier`).
-/

namespace ScoreSynth

open Binary

namespace Tempo

/-- The exact duration in milliseconds. -/
def exact (tempo : Tempo) (written : ℕ) : ℚ :=
  100 * written / tempo.percent

/-- Whether a multiplier is too small for a written duration that takes a whole number of
milliseconds.  Rounding their product makes up for half the distance from this number to the
double below it, and not for more. -/
def FallsShort (tempo : Tempo) (written : ℕ) : Prop :=
  tempo.percent ∣ 100 * written ∧
    2 ^ Nat.clog 2 (100 * written / tempo.percent) / 2 ^ 54 <
      tempo.exact written - written * value tempo.multiplier

instance (tempo : Tempo) (written : ℕ) : Decidable (tempo.FallsShort written) :=
  inferInstanceAs (Decidable (_ ∧ _))

/-- A multiplier that is not too small falls short of no duration. -/
theorem not_fallsShort_of_le {tempo : Tempo} (enough : 100 / tempo.percent ≤ value tempo.multiplier)
    (written : ℕ) : ¬ FallsShort tempo written := by
  intro falls
  have product : tempo.exact written ≤ written * value tempo.multiplier := by
    rw [exact, mul_div_right_comm, mul_comm]
    exact mul_le_mul_of_nonneg_left enough (Nat.cast_nonneg written)
  have power : (0 : ℚ) ≤ 2 ^ Nat.clog 2 (100 * written / tempo.percent) / 2 ^ 54 := by positivity
  have gap := falls.2
  linarith

/-- At half the speed no duration is too short. -/
example (written : ℕ) : ¬ FallsShort ⟨50⟩ written :=
  not_fallsShort_of_le (by decide +kernel) written

variable {percent written : ℕ}

/-- The multiplier is the double nearest to the exact factor. -/
theorem exists_isNearest_multiplier (positive : 0 < percent) (small : percent < 2 ^ 32) :
    ∃ step, IsNearest (100 / percent) (multiplier ⟨percent⟩) step ∧ -87 ≤ step ∧ step ≤ -18 := by
  rcases exists_isNormal_toFloat 100 (by decide) (by decide) with
    ⟨hundred, _, _, left, leftBounds⟩
  rcases exists_isNormal_toFloat percent positive small with ⟨valued, _, _, right, rightBounds⟩
  rcases isNearest_div left right (by omega) (by omega) with ⟨step, nearest, low, high⟩
  rw [hundred, valued] at nearest
  exact ⟨step, nearest, by omega, by omega⟩

/-- The product with the multiplier differs from the exact duration by the error of the
multiplier. -/
theorem abs_product_sub_exact_le (positive : 0 < percent) (small : percent < 2 ^ 32)
    (written : ℕ) :
    |written * value (multiplier ⟨percent⟩) - exact ⟨percent⟩ written| ≤
      exact ⟨percent⟩ written / 2 ^ 53 := by
  rcases exists_isNearest_multiplier positive small with ⟨_, multiplies, _⟩
  have apart : written * value (multiplier ⟨percent⟩) - exact ⟨percent⟩ written =
      written * (value (multiplier ⟨percent⟩) - 100 / percent) := by
    rw [exact]
    ring
  have factor : exact ⟨percent⟩ written / 2 ^ 53 = written * (100 / percent / 2 ^ 53) := by
    rw [exact]
    ring
  rw [apart, factor, abs_mul, Nat.abs_cast]
  exact mul_le_mul_of_nonneg_left multiplies.relative (Nat.cast_nonneg written)

theorem exact_nonneg (tempo : Tempo) (written : ℕ) : 0 ≤ tempo.exact written :=
  div_nonneg (by positivity) (Nat.cast_nonneg _)

/-- An exact duration is large only by the numbers of thirty-two bits that it is made of. -/
theorem exact_lt (positive : 0 < percent) (short : written < 2 ^ 32) :
    exact ⟨percent⟩ written < 2 ^ 39 := by
  have least : (1 : ℚ) ≤ percent := by exact_mod_cast positive
  have most : (100 * written : ℚ) < 2 ^ 39 := by exact_mod_cast (by omega : 100 * written < 2 ^ 39)
  exact (div_le_self (by positivity) least).trans_lt most

/-- A written duration is scaled by rounding its product with the multiplier to the nearest
double, and truncating this. -/
theorem exists_isNearest_scaled (positive : 0 < percent) (small : percent < 2 ^ 32)
    (sounding : 0 < written) (short : written < 2 ^ 32) :
    ∃ product step, IsNearest (written * value (multiplier ⟨percent⟩)) product step ∧ step < 0 ∧
      Note.scaled (multiplier ⟨percent⟩) written = ⌊value product⌋₊ := by
  rcases exists_isNearest_multiplier positive small with ⟨_, multiplies, low, high⟩
  rcases multiplies.normal with ⟨_, _, right, rightBounds⟩
  rcases exists_isNormal_toFloat written sounding short with ⟨valued, _, _, left, leftBounds⟩
  rcases isNearest_mul left right (by omega) (by omega) with ⟨step, nearest, _⟩
  rw [valued] at nearest
  have close := (abs_le.1 (abs_product_sub_exact_le positive small written)).2
  have bound := exact_lt positive short
  have fine := nearest.step_neg (by linarith)
  rcases nearest.normal with ⟨_, exponent, normal, bounds⟩
  exact ⟨_, step, nearest, fine, toNat_toUInt64 normal (by omega)⟩

/-! ## Durations that are no whole numbers -/

theorem exact_mul (positive : 0 < percent) (written : ℕ) :
    exact ⟨percent⟩ written * percent = (100 * written : ℕ) := by
  rw [exact, div_mul_cancel₀ _ (by exact_mod_cast positive.ne')]
  push_cast
  rfl

/-- An exact duration is further below the next whole number than the two errors carry. -/
theorem exact_add_lt (positive : 0 < percent) (short : written < 2 ^ 32) :
    exact ⟨percent⟩ written + exact ⟨percent⟩ written / 2 ^ 51 <
      (100 * written / percent : ℕ) + 1 := by
  have denominator : (0 : ℚ) < percent := by exact_mod_cast positive
  have next : (100 * written : ℕ) + 1 ≤ ((100 * written / percent : ℕ) + 1 : ℚ) * percent := by
    exact_mod_cast Nat.lt_mul_of_div_lt (Nat.lt_succ_self _) positive
  have part : ((100 * written : ℕ) : ℚ) / 2 ^ 51 < 1 := by
    rw [div_lt_one (by norm_num)]
    exact_mod_cast (by omega : 100 * written < 2 ^ 51)
  refine lt_of_mul_lt_mul_right ?_ denominator.le
  rw [add_mul, div_mul_eq_mul_div, exact_mul positive]
  linarith

/-- An exact duration that is no whole number is further above the one below it than the error
of the multiplier carries. -/
theorem le_exact_sub (positive : 0 < percent) (short : written < 2 ^ 32)
    (broken : ¬ percent ∣ 100 * written) :
    (100 * written / percent : ℕ) ≤ exact ⟨percent⟩ written - exact ⟨percent⟩ written / 2 ^ 53 := by
  have denominator : (0 : ℚ) < percent := by exact_mod_cast positive
  have rest : 0 < 100 * written % percent :=
    Nat.pos_of_ne_zero fun none => broken (Nat.dvd_of_mod_eq_zero none)
  have above : ((100 * written / percent : ℕ) : ℚ) * percent + 1 ≤ (100 * written : ℕ) := by
    have parts := Nat.div_add_mod' (100 * written) percent
    exact_mod_cast (by omega : 100 * written / percent * percent + 1 ≤ 100 * written)
  have part : ((100 * written : ℕ) : ℚ) / 2 ^ 53 ≤ 1 := by
    rw [div_le_one (by norm_num)]
    exact_mod_cast (by omega : 100 * written ≤ 2 ^ 53)
  refine le_of_mul_le_mul_right ?_ denominator
  rw [sub_mul, div_mul_eq_mul_div, exact_mul positive]
  linarith

section

variable {product : Float} {step : ℤ}

theorem value_lt (positive : 0 < percent) (small : percent < 2 ^ 32) (short : written < 2 ^ 32)
    (nearest : IsNearest (written * value (multiplier ⟨percent⟩)) product step) :
    value product < (100 * written / percent : ℕ) + 1 := by
  have first := (abs_le.1 (abs_product_sub_exact_le positive small written)).2
  have second := (abs_le.1 nearest.relative).2
  have errors := exact_add_lt positive short
  have whole := exact_nonneg ⟨percent⟩ written
  linarith

theorem floor_of_not_dvd (positive : 0 < percent) (small : percent < 2 ^ 32)
    (short : written < 2 ^ 32) (broken : ¬ percent ∣ 100 * written)
    (nearest : IsNearest (written * value (multiplier ⟨percent⟩)) product step) (fine : step < 0) :
    ⌊value product⌋₊ = 100 * written / percent := by
  have error := (abs_le.1 (abs_product_sub_exact_le positive small written)).1
  have above := le_exact_sub positive short broken
  have least := nearest.natural_le fine.le (100 * written / percent) (by linarith)
  rw [Nat.floor_eq_iff ((Nat.cast_nonneg _).trans least)]
  exact ⟨least, value_lt positive small short nearest⟩

/-! ## Durations that are whole numbers -/

theorem exact_eq (positive : 0 < percent) (whole : percent ∣ 100 * written) :
    exact ⟨percent⟩ written = (100 * written / percent : ℕ) := by
  have denominator : (percent : ℚ) ≠ 0 := by exact_mod_cast positive.ne'
  refine mul_right_cancel₀ denominator ?_
  rw [exact_mul positive]
  exact_mod_cast (Nat.div_mul_cancel whole).symm

theorem milliseconds_pos (positive : 0 < percent) (sounding : 0 < written)
    (whole : percent ∣ 100 * written) : 0 < 100 * written / percent :=
  Nat.div_pos (Nat.le_of_dvd (by omega) whole) positive

theorem sub_le_product (positive : 0 < percent) (small : percent < 2 ^ 32)
    (whole : percent ∣ 100 * written) :
    ((100 * written / percent : ℕ) : ℚ) - (100 * written / percent : ℕ) / 2 ^ 53 ≤
      written * value (multiplier ⟨percent⟩) := by
  have error := (abs_le.1 (abs_product_sub_exact_le positive small written)).1
  rw [exact_eq positive whole] at error
  linarith

theorem milliseconds_lt (percent : ℕ) (short : written < 2 ^ 32) :
    100 * written / percent < 2 ^ 39 :=
  (Nat.div_le_self _ percent).trans_lt (by omega)

theorem floor_of_le (positive : 0 < percent) (small : percent < 2 ^ 32) (short : written < 2 ^ 32)
    (nearest : IsNearest (written * value (multiplier ⟨percent⟩)) product step)
    (reached : (100 * written / percent : ℕ) ≤ value product) :
    ⌊value product⌋₊ = 100 * written / percent := by
  rw [Nat.floor_eq_iff ((Nat.cast_nonneg _).trans reached)]
  exact ⟨reached, value_lt positive small short nearest⟩

/-- Below a whole number, a duration comes out one too short. -/
theorem floor_of_lt (positive : 0 < percent) (small : percent < 2 ^ 32) (sounding : 0 < written)
    (short : written < 2 ^ 32) (whole : percent ∣ 100 * written)
    (nearest : IsNearest (written * value (multiplier ⟨percent⟩)) product step) (fine : step < 0)
    (missed : value product < (100 * written / percent : ℕ)) :
    ⌊value product⌋₊ + 1 = 100 * written / percent := by
  have some := milliseconds_pos positive sounding whole
  have few := milliseconds_lt percent short
  have error := sub_le_product positive small whole
  have part : ((100 * written / percent : ℕ) : ℚ) / 2 ^ 53 ≤ 1 := by
    rw [div_le_one (by norm_num)]
    exact_mod_cast few.le.trans (by norm_num)
  generalize 100 * written / percent = milliseconds at *
  have before : ((milliseconds - 1 : ℕ) : ℚ) = milliseconds - 1 := by
    push_cast [Nat.cast_sub some]
    rfl
  have least := nearest.natural_le fine.le (milliseconds - 1) (by rw [before]; linarith)
  have floor : ⌊value product⌋₊ = milliseconds - 1 := by
    rw [Nat.floor_eq_iff ((Nat.cast_nonneg _).trans least), before]
    exact ⟨before ▸ least, by linarith⟩
  omega

/-- A number a little below a whole one lies among doubles as dense as those directly below the
whole one. -/
theorem step_eq_clog {number : ℚ} {milliseconds : ℕ} (some : 0 < milliseconds)
    (few : milliseconds < 2 ^ 39) (near : milliseconds - milliseconds / 2 ^ 53 ≤ number)
    (below : number < milliseconds) (nearest : IsNearest number product step) :
    step = Nat.clog 2 milliseconds - 53 := by
  have unit : (0 : ℚ) < 2 ^ step := zpow_pos two_pos step
  have lower := (le_div_iff₀ unit).1 nearest.lower
  have upper := (div_lt_iff₀ unit).1 nearest.upper
  rw [← zpow_natCast, ← zpow_add₀ two_ne_zero] at lower upper
  have power : (milliseconds : ℚ) ≤ 2 ^ (Nat.clog 2 milliseconds : ℤ) := by
    rw [zpow_natCast]
    exact_mod_cast Nat.le_pow_clog one_lt_two milliseconds
  have half : (2 : ℚ) ^ ((Nat.clog 2 milliseconds : ℤ) - 1) ≤ number := by
    have part : (milliseconds : ℚ) / 2 ^ 53 ≤ 1 / 2 := by
      rw [div_le_div_iff₀ (by norm_num) two_pos]
      exact_mod_cast (by omega : milliseconds * 2 ≤ 1 * 2 ^ 53)
    rcases Nat.lt_or_ge 1 milliseconds with many | one
    · have log := Nat.clog_pos one_lt_two many
      have before : (2 : ℚ) ^ ((Nat.clog 2 milliseconds : ℤ) - 1) + 1 ≤ milliseconds := by
        rw [← Nat.cast_pred log, zpow_natCast]
        exact_mod_cast Nat.pow_pred_clog_lt_self one_lt_two many
      linarith
    · have single : milliseconds = 1 := by omega
      subst single
      rw [Nat.clog_one_right]
      norm_num at near ⊢
      linarith
  have most := (zpow_lt_zpow_iff_right₀ (one_lt_two (α := ℚ))).1
    ((lower.trans_lt below).trans_le power)
  have least := (zpow_lt_zpow_iff_right₀ (one_lt_two (α := ℚ))).1 (half.trans_lt upper)
  push_cast at most least
  omega

/-- The product of a multiplier that is too small is rounded up to the whole number unless it
falls short of it by more than half the distance of the next double. -/
theorem le_value_iff (positive : 0 < percent) (small : percent < 2 ^ 32)
    (sounding : 0 < written) (short : written < 2 ^ 32) (whole : percent ∣ 100 * written)
    (nearest : IsNearest (written * value (multiplier ⟨percent⟩)) product step) (fine : step < 0) :
    (100 * written / percent : ℕ) ≤ value product ↔ ¬ FallsShort ⟨percent⟩ written := by
  have some := milliseconds_pos positive sounding whole
  have few := milliseconds_lt percent short
  have near := sub_le_product positive small whole
  rw [FallsShort, exact_eq positive whole]
  simp only [whole, true_and, not_lt]
  generalize 100 * written / percent = milliseconds at *
  rcases lt_or_ge (written * value (multiplier ⟨percent⟩)) (milliseconds : ℚ) with below | above
  · have most := nearest.le_natural fine.le _ below.le
    have half : (2 : ℚ) ^ step / 2 = 2 ^ Nat.clog 2 milliseconds / 2 ^ 54 := by
      rw [step_eq_clog some few near below nearest, zpow_sub₀ two_ne_zero, zpow_natCast]
      norm_num
      ring
    rw [← half, ← nearest.value_eq_iff fine below]
    exact ⟨fun least => le_antisymm most least, fun same => same.ge⟩
  · have least := nearest.natural_le fine.le _ above
    have power : (0 : ℚ) ≤ 2 ^ Nat.clog 2 milliseconds / 2 ^ 54 := by positivity
    exact ⟨fun _ => by linarith, fun _ => least⟩

end

theorem scaled_zero {multiplier : Float} {significand : ℕ} {exponent : ℤ}
    (normal : IsNormal multiplier significand exponent) : Note.scaled multiplier 0 = 0 := by
  rcases normal.unpack_eq with ⟨positive, unpacked⟩
  have zero : (0 : ℕ).toFloat.toModel.unpack = .zero .positive := rfl
  have product : (0 : ℕ).toFloat * multiplier = .ofModel (.pack (.zero .positive)) := by
    change Float.ofModel (.pack (Float.Model.UnpackedFloat.mul Float.Model.Format.binary64
      (0 : ℕ).toFloat.toModel.unpack multiplier.toModel.unpack)) = _
    rw [zero, unpacked]
    rfl
  rw [Note.scaled, product]
  rfl

theorem not_fallsShort_zero (tempo : Tempo) : ¬ FallsShort tempo 0 := by
  intro falls
  have none : tempo.exact 0 - (0 : ℕ) * value tempo.multiplier = 0 := by
    rw [exact, Nat.cast_zero, mul_zero, zero_div, zero_mul, sub_zero]
  have power : (0 : ℚ) < 2 ^ Nat.clog 2 (100 * 0 / tempo.percent) / 2 ^ 54 := by positivity
  exact absurd falls.2 (not_lt.2 (none ▸ power.le))

/-- A written duration is scaled by the exact factor and truncated, but it comes out one too
short where the multiplier falls short. -/
theorem scaled_eq (positive : 0 < percent) (small : percent < 2 ^ 32) (short : written < 2 ^ 32) :
    (FallsShort ⟨percent⟩ written →
      Note.scaled (multiplier ⟨percent⟩) written + 1 = 100 * written / percent) ∧
    (¬ FallsShort ⟨percent⟩ written →
      Note.scaled (multiplier ⟨percent⟩) written = 100 * written / percent) := by
  rcases Nat.eq_zero_or_pos written with rfl | sounding
  · rcases exists_isNearest_multiplier positive small with ⟨_, multiplies, _⟩
    rcases multiplies.normal with ⟨_, _, normal, _⟩
    rw [scaled_zero normal, Nat.mul_zero, Nat.zero_div]
    exact ⟨fun falls => absurd falls (not_fallsShort_zero ⟨percent⟩), fun _ => rfl⟩
  · rcases exists_isNearest_scaled positive small sounding short with
      ⟨product, step, nearest, fine, scaled⟩
    rw [scaled]
    by_cases whole : percent ∣ 100 * written
    · have reached := le_value_iff positive small sounding short whole nearest fine
      refine ⟨fun falls => ?_, fun holds => ?_⟩
      · have missed := lt_of_not_ge fun least => reached.1 least falls
        exact floor_of_lt positive small sounding short whole nearest fine missed
      · exact floor_of_le positive small short nearest (reached.2 holds)
    · refine ⟨fun falls => absurd falls.1 whole, fun _ => ?_⟩
      exact floor_of_not_dvd positive small short whole nearest fine

end Tempo

/-- The multiplier of a tempo is the double nearest to the exact factor.  A note that is
written with this tempo takes its exact duration, truncated to milliseconds, unless that is a
whole number of milliseconds and the multiplier falls short; then it takes one less. -/
theorem Note.ofToken_multiplier {percent written : ℕ} {name duration : List Char} {pitch : Pitch}
    {token : Token} (positive : 1 ≤ percent) (small : percent < 2 ^ 32)
    (spelled : token.text = name ++ ',' :: duration) (named : Pitch.ofName? name = some pitch)
    (read : Numeral.natural? Numeral.bound32 duration = some written) :
    (∃ step, IsNearest (100 / percent) (Tempo.multiplier ⟨percent⟩) step) ∧
    ∃ milliseconds, Note.ofToken (Tempo.multiplier ⟨percent⟩) token =
        .ok ⟨pitch, milliseconds, token.line⟩ ∧
      (¬ Tempo.FallsShort ⟨percent⟩ written → milliseconds = 100 * written / percent) ∧
      (Tempo.FallsShort ⟨percent⟩ written →
        percent ∣ 100 * written ∧ milliseconds + 1 = 100 * written / percent) := by
  rcases Tempo.exists_isNearest_multiplier positive small with ⟨step, nearest, _⟩
  have scaled := Tempo.scaled_eq positive small (Numeral.lt_of_natural? read)
  have plain := (Pitch.isWord_of_name?_eq_some (Pitch.ofName?_eq_some_iff.1 named)).2
  have parts := parts?_eq_some_iff.2 ⟨spelled, plain⟩
  refine ⟨⟨step, nearest⟩, Note.scaled (Tempo.multiplier ⟨percent⟩) written, ?_, scaled.2,
    fun falls => ⟨falls.1, scaled.1 falls⟩⟩
  exact ofToken_eq_ok.2 ⟨name, duration, written, parts, named, read, rfl, rfl⟩

/-- A duration of five hundred milliseconds that is one too short. -/
theorem Note.ofToken_short :
    ofToken (Tempo.multiplier ⟨29⟩) ⟨"A4,145".toList, 1, 0⟩ =
        .ok ⟨Pitch.tuningKey, 499, 1⟩ ∧ 100 * 145 / 29 = 500 := by
  decide +kernel

theorem Note.ofToken_multiplier_short :
    Tempo.FallsShort ⟨29⟩ 145 ∧
      ∃ milliseconds, ofToken (Tempo.multiplier ⟨29⟩) ⟨"A4,145".toList, 1, 0⟩ =
          .ok ⟨Pitch.tuningKey, milliseconds, 1⟩ ∧ milliseconds + 1 = 500 := by
  have falls : Tempo.FallsShort ⟨29⟩ 145 := by decide +kernel
  have read := @ofToken_multiplier 29 145 "A4".toList "145".toList Pitch.tuningKey
    ⟨"A4,145".toList, 1, 0⟩ (by decide) (by decide) (by decide) (by decide +kernel) (by decide)
  rcases read.2 with ⟨milliseconds, note, _, short⟩
  exact ⟨falls, milliseconds, note, (short falls).2⟩

end ScoreSynth
