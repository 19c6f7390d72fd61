import ScoreSynth.Fault
import ScoreSynth.Runs
import ScoreSynth.Text.Numeral
import ScoreSynth.Token

/-!
# Loops

A loop is written as an opening word, a repeat count, a body and a closing word.
It stands for as many copies of its body as the count says; each copy keeps the
places of its tokens.  Loops do not nest.  The count must be at least two.

The tokens are cut at the two reserved words, so that a loop is an opening mark,
the run behind it and a closing mark.
-/

namespace ScoreSynth.Score

/-- Whether a token opens or closes a loop. -/
def isLoopMark (token : Token) : Bool :=
  token.is .loop || token.is .endloop

/-- As many copies of a list as the count says.  A list without elements is not
copied, however large the count. -/
def copies {α : Type} (count : Nat) (body : List α) : List α :=
  if body.isEmpty then [] else (List.replicate count body).flatten

/-- Unroll a loop, given its opening token and the run behind it. -/
def unroll (opening : Token) : List Token → Except Fault (List Token)
  | [] => .error (.badCount opening.line .missing)
  | count :: body =>
      match Numeral.natural? Numeral.bound64 count.text with
      | none => .error (.badCount count.line (.unreadable count.text))
      | some number =>
          if number < 2 then .error (.badCount count.line .tooSmall)
          else .ok (copies number body)

/-- Unroll the loops among marks and the runs behind them.  A run behind an
opening mark is a loop's inside, and a run behind a closing mark is outside. -/
def unrollRuns : List (Token × List Token) → Except Fault (List Token)
  | [] => .ok []
  | (mark, inside) :: others =>
      if ! mark.is .loop then .error (.malformed mark.line .strayLoopEnd)
      else match others with
        | [] => .error (.malformed mark.line .openLoop)
        | (next, outside) :: others =>
            if next.is .loop then .error (.nestedLoop next.line)
            else do
              let unrolled ← unroll mark inside
              let following ← unrollRuns others
              return unrolled ++ outside ++ following

/-- Replace every loop by the copies it stands for. -/
def expandLoops (tokens : List Token) : Except Fault (List Token) := do
  let runs := Runs.cut isLoopMark tokens
  let following ← unrollRuns runs.later
  return runs.first ++ following

/-- Copies are repetition, of any list. -/
@[simp] theorem copies_eq {α : Type} (count : Nat) (body : List α) :
    copies count body = (List.replicate count body).flatten := by
  cases body with
  | nil => simp [copies]
  | cons head tail => rfl

end ScoreSynth.Score
