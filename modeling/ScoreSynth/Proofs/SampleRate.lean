import Mathlib.Data.List.Basic
import ScoreSynth.Proofs.Text.Numeral
import ScoreSynth.SampleRate

/-!
# The forms of a sample rate

A rate is the word `default`, a number of kilohertz or a number of hertz, and there is one
equation for each of these forms.  A number of kilohertz ends as one of hertz does, but with a
letter where the digits should be, so no text that is read has two forms.
-/

namespace ScoreSynth.SampleRate

variable {number? : List Char → Option Float} {text : List Char} {rate : Nat}

/-- A number that is spelled ends in a digit. -/
theorem not_kilohertz_of_spells (spelled : Numeral.Spells text rate) :
    ¬ "kHz".toList <:+ text ++ "Hz".toList := by
  rintro ⟨others, same⟩
  have letters : "kHz".toList = ['k'] ++ "Hz".toList := rfl
  rw [letters, ← List.append_assoc] at same
  have letter : 'k' ∈ text := by
    rw [← List.append_cancel_right same]
    simp
  rcases spelled with ⟨digits, rfl | rfl, _, allDigits, _⟩
  · exact absurd (allDigits 'k' letter) (by decide)
  · rcases List.mem_cons.1 letter with sign | inside
    · exact absurd sign (by decide)
    · exact absurd (allDigits 'k' inside) (by decide)

theorem hertz_of_kilohertz (ends : "kHz".toList <:+ text) : "Hz".toList <:+ text :=
  (List.suffix_cons 'k' "Hz".toList).trans ends

theorem ne_default_of_hertz (ends : "Hz".toList <:+ text) : text ≠ "default".toList := by
  rintro rfl
  exact absurd ends (by decide)

theorem isSuffixOf?_eq_none {ending : List Char} (different : ¬ ending <:+ text) :
    ending.isSuffixOf? text = none := by
  rw [Option.eq_none_iff_forall_ne_some]
  intro others found
  exact different ⟨others, List.isSuffixOf?_eq_some_iff_append_eq.1 found⟩

/-! ## One equation for each form -/

theorem ofTextWith?_default : ofTextWith? number? "default".toList = some standard :=
  rfl

theorem ofTextWith?_kilohertz :
    ofTextWith? number? (text ++ "kHz".toList) =
      ((number? text).bind ofKilohertz?).filter (0 < ·) := by
  have ends : "kHz".toList <:+ text ++ "kHz".toList := List.suffix_append text _
  have cut : "kHz".toList.isSuffixOf? (text ++ "kHz".toList) = some text :=
    List.isSuffixOf?_eq_some_iff_append_eq.2 rfl
  rw [ofTextWith?, written?, if_neg (ne_default_of_hertz (hertz_of_kilohertz ends)), cut]

/-- What ends in `kHz` is not tried as a number of hertz. -/
theorem ofTextWith?_hertz (noKilohertz : ¬ "kHz".toList <:+ text ++ "Hz".toList) :
    ofTextWith? number? (text ++ "Hz".toList) =
      (Numeral.natural? Numeral.bound32 text).filter (0 < ·) := by
  have ends : "Hz".toList <:+ text ++ "Hz".toList := List.suffix_append text _
  have cut : "Hz".toList.isSuffixOf? (text ++ "Hz".toList) = some text :=
    List.isSuffixOf?_eq_some_iff_append_eq.2 rfl
  rw [ofTextWith?, written?, if_neg (ne_default_of_hertz ends), isSuffixOf?_eq_none noKilohertz,
    cut]

theorem ofTextWith?_other (unnamed : text ≠ "default".toList) (noHertz : ¬ "Hz".toList <:+ text) :
    ofTextWith? number? text = none := by
  rw [ofTextWith?, written?, if_neg unnamed,
    isSuffixOf?_eq_none fun ends => noHertz (hertz_of_kilohertz ends), isSuffixOf?_eq_none noHertz,
    Option.filter_none]

/-- Every number in range is read where it stands before `Hz`. -/
theorem ofTextWith?_hertz_eq_some_iff (noKilohertz : ¬ "kHz".toList <:+ text ++ "Hz".toList) :
    ofTextWith? number? (text ++ "Hz".toList) = some rate ↔
      Numeral.Spells text rate ∧ 0 < rate ∧ rate < Numeral.bound32 := by
  rw [ofTextWith?_hertz noKilohertz, Option.filter_eq_some_iff, decide_eq_true_iff,
    Numeral.natural?_eq_some_iff]
  exact and_right_comm.trans and_assoc

end ScoreSynth.SampleRate
