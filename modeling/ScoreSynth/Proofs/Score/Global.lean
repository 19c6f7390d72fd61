import ScoreSynth.Proofs.Runs
import ScoreSynth.Proofs.Stepwise
import ScoreSynth.Score.Global

/-!
# Reading the global settings

The block of global settings ends at the first word that closes it, and what stands
behind it is handed back as it is (`takeGlobals_eq_ok`).  The tempo that is read is a
positive number of thirty-two bits.
-/

namespace ScoreSynth.Score

open Stepwise

theorem percent_mem_of_tempoOfToken {token : Token} {tempo : Tempo}
    (read : tempoOfToken token = .ok tempo) :
    0 < tempo.percent ∧ tempo.percent < Numeral.bound32 := by
  rw [tempoOfToken] at read
  split at read
  · next percent found =>
      cases read
      rcases Option.filter_eq_some_iff.1 found with ⟨parsed, positive⟩
      rcases Option.bind_eq_some_iff.1 parsed with ⟨digits, _, number⟩
      exact ⟨by simpa using positive, Numeral.lt_of_natural? number⟩
  · cases read

/-- The tempo that the global settings end with is a positive number of thirty-two
bits, if the tempo they begin with is one. -/
theorem percent_mem_of_readGlobals {last : Option Tempo} {tokens : List Token}
    {tempo : Tempo}
    (before : ∀ earlier, last = some earlier →
      0 < earlier.percent ∧ earlier.percent < Numeral.bound32)
    (read : readGlobals last tokens = .ok (some tempo)) :
    0 < tempo.percent ∧ tempo.percent < Numeral.bound32 := by
  fun_induction readGlobals last tokens with
  | case1 last =>
      cases read
      exact before tempo rfl
  | case2 last name others unknown => cases read
  | case3 last name known => cases read
  | case4 last name known value others ih =>
      rcases bind_eq_ok.1 read with ⟨next, readNext, readOthers⟩
      refine ih next ?_ readOthers
      intro earlier equal
      cases equal
      exact percent_mem_of_tempoOfToken readNext

/-- Behind the word that opens the settings, the first one that closes them decides what is
inside. -/
theorem takeGlobals_closed {opening closing : Token} {inside : List Token}
    (opens : opening.is .globalconfig = true)
    (inner : ∀ token ∈ inside, token.is .endglobalconfig = false)
    (closes : closing.is .endglobalconfig = true) (body : List Token) :
    takeGlobals (opening :: (inside ++ closing :: body)) =
      match readGlobals none inside with
      | .error fault => .error fault
      | .ok none => .error (.malformed opening.line .noTempo)
      | .ok (some tempo) => .ok (tempo, body) := by
  have kept : ∀ token ∈ inside, (! token.is .endglobalconfig) = true := by
    simpa using inner
  rw [takeGlobals]
  simp only [opens, Bool.not_true, Bool.false_eq_true, if_false]
  rw [Runs.dropWhile_append_cons kept (by simp [closes])]
  rw [Runs.takeWhile_append_cons kept (by simp [closes])]
  rcases readGlobals none inside with fault | last
  · rfl
  · cases last <;> rfl

theorem takeGlobals_unopened {first : Token} (unopened : first.is .globalconfig = false)
    (others : List Token) :
    takeGlobals (first :: others) = .error (.malformed first.line .noGlobalStart) := by
  rw [takeGlobals]
  simp [unopened]

theorem takeGlobals_unclosed {opening : Token} {others : List Token}
    (opens : opening.is .globalconfig = true)
    (inner : ∀ token ∈ others, token.is .endglobalconfig = false) :
    takeGlobals (opening :: others) = .error (.malformed opening.line .openGlobal) := by
  have dropped : others.dropWhile (! ·.is .endglobalconfig) = [] := by
    simpa [List.dropWhile_eq_nil_iff] using inner
  rw [takeGlobals]
  simp [opens, dropped]

/-- Tokens behind the opening word are closed by a first word, or by none. -/
theorem forall_or_exists_closing (tokens : List Token) :
    (∀ token ∈ tokens, token.is .endglobalconfig = false) ∨
      ∃ inside closing body, tokens = inside ++ closing :: body ∧
        (∀ token ∈ inside, token.is .endglobalconfig = false) ∧
        closing.is .endglobalconfig = true := by
  cases found : tokens.dropWhile (! ·.is .endglobalconfig) with
  | nil => exact .inl (by simpa [List.dropWhile_eq_nil_iff] using found)
  | cons closing body =>
      rcases Runs.eq_append_cons_of_dropWhile found with ⟨whole, inner, closes⟩
      exact .inr ⟨_, closing, body, whole, by simpa using inner, by simpa using closes⟩

/-- The words between the one that opens the global settings and the first one that
closes them are the settings. -/
theorem takeGlobals_append {opening closing : Token} {inside : List Token} {tempo : Tempo}
    (opens : opening.is .globalconfig = true)
    (inner : ∀ token ∈ inside, token.is .endglobalconfig = false)
    (closes : closing.is .endglobalconfig = true)
    (read : readGlobals none inside = .ok (some tempo)) (body : List Token) :
    takeGlobals (opening :: (inside ++ closing :: body)) = .ok (tempo, body) := by
  rw [takeGlobals_closed opens inner closes, read]

/-- The global settings are taken exactly when they stand between their two words and can
be read. -/
theorem takeGlobals_eq_ok {tokens body : List Token} {tempo : Tempo} :
    takeGlobals tokens = .ok (tempo, body) ↔
      ∃ opening inside closing, tokens = opening :: (inside ++ closing :: body) ∧
        opening.is .globalconfig = true ∧
        (∀ token ∈ inside, token.is .endglobalconfig = false) ∧
        closing.is .endglobalconfig = true ∧
        readGlobals none inside = .ok (some tempo) := by
  constructor
  · intro taken
    cases tokens with
    | nil => cases taken
    | cons opening others =>
        by_cases opens : opening.is .globalconfig = true
        · rcases forall_or_exists_closing others with
            inner | ⟨inside, closing, after, rfl, inner, closes⟩
          · rw [takeGlobals_unclosed opens inner] at taken
            cases taken
          · rw [takeGlobals_closed opens inner closes] at taken
            split at taken
            · cases taken
            · cases taken
            · next read =>
                cases taken
                exact ⟨opening, inside, closing, rfl, opens, inner, closes, read⟩
        · rw [takeGlobals_unopened (Bool.eq_false_iff.2 opens)] at taken
          cases taken
  · intro written
    rcases written with ⟨opening, inside, closing, rfl, opens, inner, closes, read⟩
    exact takeGlobals_append opens inner closes read body

theorem percent_mem_of_takeGlobals {tokens body : List Token} {tempo : Tempo}
    (taken : takeGlobals tokens = .ok (tempo, body)) :
    0 < tempo.percent ∧ tempo.percent < Numeral.bound32 := by
  rcases takeGlobals_eq_ok.1 taken with ⟨_, _, _, _, _, _, _, read⟩
  exact percent_mem_of_readGlobals (by simp) read

end ScoreSynth.Score
