import ScoreSynth.Proofs.Binary.Truncation
import ScoreSynth.Proofs.SampleRate

/-!
# What a sample rate stands for

Each form of a rate has a meaning of its own (`StandsFor`), and a text is read as a rate exactly if
it stands for one that is not zero and fits in thirty-two bits (`read_iff_standsFor`).  Numbers of
kilohertz can be any doubles.  The largest ones become the largest word when their fractions are
dropped, and that is too much for a product of thirty-two bits, as the numbers themselves are.
-/

namespace ScoreSynth.SampleRate

open Binary

/-- The rate of a text in one of the three forms.  How kilohertz are read is left to `number?`. -/
inductive StandsFor (number? : List Char → Option Float) : List Char → Nat → Prop where
  | named : StandsFor number? "default".toList 16384
  /-- The fraction of the number is dropped before the number is scaled. -/
  | kilohertz {text : List Char} {number : Float} (read : number? text = some number)
      (finite : number.isFinite = true) (nonneg : 0 ≤ value number) :
      StandsFor number? (text ++ "kHz".toList) (1024 * ⌊value number⌋₊)
  | hertz {text : List Char} {rate : Nat} (spelled : Numeral.Spells text rate)
      (noKilohertz : ¬ "kHz".toList <:+ text ++ "Hz".toList) :
      StandsFor number? (text ++ "Hz".toList) rate

variable {number? : List Char → Option Float} {text : List Char} {rate : Nat} {number : Float}

theorem ofKilohertz?_eq (finite : number.isFinite = true) (nonneg : 0 ≤ value number) :
    ofKilohertz? number =
      if ⌊value number⌋₊ < 2 ^ 22 then some (1024 * ⌊value number⌋₊) else none := by
  have sensible : ¬ ((! number.isFinite) = true ∨ number < 0) := by
    rw [finite, lt_zero_iff finite]
    simpa using nonneg
  simp only [ofKilohertz?, Bool.or_eq_true, decide_eq_true_eq, if_neg sensible,
    toNat_toUInt32 finite nonneg, hertzPerKilohertz, Numeral.bound32]
  split
  · next small =>
    have fits : min ⌊value number⌋₊ (2 ^ 32 - 1) = ⌊value number⌋₊ := by omega
    rw [if_pos (by omega), fits, Nat.mul_comm]
  · next large => rw [if_neg (by omega)]

theorem ofKilohertz?_eq_none (senseless : ¬ (number.isFinite = true ∧ 0 ≤ value number)) :
    ofKilohertz? number = none := by
  have refused : (! number.isFinite) = true ∨ number < 0 := by
    by_contra sensible
    push Not at sensible
    have finite : number.isFinite = true := by simpa using sensible.1
    exact senseless ⟨finite, not_lt.1 fun below => sensible.2 ((lt_zero_iff finite).2 below)⟩
  simp only [ofKilohertz?, Bool.or_eq_true, decide_eq_true_eq, if_pos refused]

/-- A number of kilohertz is read if it makes a rate in range. -/
theorem ofTextWith?_of_reads (read : number? text = some number) (finite : number.isFinite = true)
    (nonneg : 0 ≤ value number) :
    ofTextWith? number? (text ++ "kHz".toList) =
      if 1 ≤ ⌊value number⌋₊ ∧ ⌊value number⌋₊ < 2 ^ 22 then some (1024 * ⌊value number⌋₊)
      else none := by
  rw [ofTextWith?_kilohertz, read, Option.bind_some, ofKilohertz?_eq finite nonneg]
  generalize ⌊value number⌋₊ = whole
  by_cases small : whole < 2 ^ 22
  · rw [if_pos small, Option.filter_some]
    by_cases positive : 1 ≤ whole
    · rw [if_pos (decide_eq_true (by omega)), if_pos ⟨positive, small⟩]
    · rw [if_neg (by rw [decide_eq_true_iff]; omega), if_neg fun range => positive range.1]
  · rw [if_neg small, if_neg fun range => small range.2, Option.filter_none]

/-- Below the bound on kilohertz a product of thirty-two bits is the exact one. -/
theorem toNat_toUInt32_mul (finite : number.isFinite = true) (nonneg : 0 ≤ value number)
    (small : ⌊value number⌋₊ < 2 ^ 22) :
    (number.toUInt32 * 1024).toNat = 1024 * ⌊value number⌋₊ := by
  have factor : (1024 : UInt32).toNat = 1024 := rfl
  rw [UInt32.toNat_mul, factor, toNat_toUInt32 finite nonneg, min_eq_left (by omega),
    Nat.mod_eq_of_lt (by omega), Nat.mul_comm]

/-- What is read has one of the three forms. -/
theorem standsFor_of_eq_some (read : ofTextWith? number? text = some rate) :
    StandsFor number? text rate ∧ 1 ≤ rate ∧ rate < 2 ^ 32 := by
  by_cases named : text = "default".toList
  · subst named
    rw [ofTextWith?_default, Option.some.injEq] at read
    subst read
    exact ⟨.named, by decide, by decide⟩
  by_cases kilohertz : "kHz".toList <:+ text
  · obtain ⟨written, rfl⟩ := kilohertz
    cases readNumber : number? written with
    | none =>
        rw [ofTextWith?_kilohertz, readNumber, Option.bind_none, Option.filter_none] at read
        cases read
    | some number =>
        by_cases sensible : number.isFinite = true ∧ 0 ≤ value number
        · rw [ofTextWith?_of_reads readNumber sensible.1 sensible.2] at read
          split at read
          · next range =>
            cases read
            exact ⟨.kilohertz readNumber sensible.1 sensible.2, by omega, by omega⟩
          · cases read
        · rw [ofTextWith?_kilohertz, readNumber, Option.bind_some, ofKilohertz?_eq_none sensible,
            Option.filter_none] at read
          cases read
  by_cases hertz : "Hz".toList <:+ text
  · obtain ⟨written, rfl⟩ := hertz
    obtain ⟨spelled, positive, small⟩ := (ofTextWith?_hertz_eq_some_iff kilohertz).1 read
    exact ⟨.hertz spelled kilohertz, positive, small⟩
  · rw [ofTextWith?_other named hertz] at read
    cases read

theorem StandsFor.eq_some (stands : StandsFor number? text rate) (positive : 1 ≤ rate)
    (small : rate < 2 ^ 32) : ofTextWith? number? text = some rate := by
  cases stands with
  | named => exact ofTextWith?_default
  | kilohertz read finite nonneg =>
      rw [ofTextWith?_of_reads read finite nonneg, if_pos (by omega)]
  | hertz spelled noKilohertz =>
      exact (ofTextWith?_hertz_eq_some_iff noKilohertz).2 ⟨spelled, positive, small⟩

/-- A text is read as a rate exactly if it stands for one that is not zero and fits in thirty-two
bits.  Every such number is read where it stands before `Hz`.  Kilohertz that are finite and not
negative are read exactly if their whole part is not zero and has twenty-two bits at most, and then
nothing is lost of the product in thirty-two bits. -/
theorem read_iff_standsFor (number? : List Char → Option Float) :
    (∀ text rate, ofTextWith? number? text = some rate ↔
      StandsFor number? text rate ∧ 1 ≤ rate ∧ rate < 2 ^ 32) ∧
    (∀ text rate, Numeral.Spells text rate → 1 ≤ rate → rate < 2 ^ 32 →
      ofTextWith? number? (text ++ "Hz".toList) = some rate) ∧
    (∀ text number, number? text = some number → number.isFinite = true → 0 ≤ value number →
      ofTextWith? number? (text ++ "kHz".toList) =
          (if 1 ≤ ⌊value number⌋₊ ∧ ⌊value number⌋₊ < 2 ^ 22 then some (1024 * ⌊value number⌋₊)
          else none) ∧
        (⌊value number⌋₊ < 2 ^ 22 →
          (number.toUInt32 * 1024).toNat = 1024 * ⌊value number⌋₊)) := by
  refine ⟨fun text rate => ?_, ?_, ?_⟩
  · constructor
    · exact standsFor_of_eq_some
    · intro stands
      exact stands.1.eq_some stands.2.1 stands.2.2
  · intro text rate spelled positive small
    exact (StandsFor.hertz spelled (not_kilohertz_of_spells spelled)).eq_some positive small
  · intro text number read finite nonneg
    exact ⟨ofTextWith?_of_reads read finite nonneg, toNat_toUInt32_mul finite nonneg⟩

theorem read_iff_standsFor_written :
    StandsFor Decimal.number? "44.1kHz".toList 45056 ∧
      ofText? ("+8000".toList ++ "Hz".toList) = some 8000 := by
  obtain ⟨read, hertz, _⟩ := read_iff_standsFor Decimal.number?
  have spelled : Numeral.Spells "+8000".toList 8000 :=
    ⟨"8000".toList, .inr rfl, by decide, List.all_eq_true.1 (by decide), rfl⟩
  exact ⟨((read _ _).1 (by decide +kernel)).1, hertz _ _ spelled (by decide) (by decide)⟩

/-- The largest word is too much, and so is the first number of twenty-three bits. -/
example : ofText? "4194304kHz".toList = none ∧ ofText? "1e400kHz".toList = none ∧
    ofText? "-0kHz".toList = none := by
  decide +kernel

end ScoreSynth.SampleRate
