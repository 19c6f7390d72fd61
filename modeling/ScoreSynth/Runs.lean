/-!
# Sequences cut at their marks

Some elements of a sequence are marks.  Cutting the sequence there leaves the run
before the first mark, and behind every mark the run that follows it.  Nothing is
lost: the runs and the marks together are the sequence (`toList_cut`).
-/

namespace ScoreSynth

/-- The run before the first mark, and each mark with the run behind it. -/
structure Runs (α : Type) where
  first : List α
  later : List (α × List α)
  deriving DecidableEq, Repr

namespace Runs

variable {α : Type}

/-- Put one more element in front. -/
def extend (isMark : α → Bool) (element : α) (runs : Runs α) : Runs α :=
  if isMark element then ⟨[], (element, runs.first) :: runs.later⟩
  else ⟨element :: runs.first, runs.later⟩

/-- Cut a sequence at its marks. -/
def cut (isMark : α → Bool) (sequence : List α) : Runs α :=
  sequence.foldr (extend isMark) ⟨[], []⟩

/-- The sequence again. -/
def toList (runs : Runs α) : List α :=
  runs.first ++ runs.later.flatMap fun (mark, run) => mark :: run

@[simp] theorem cut_nil (isMark : α → Bool) : cut isMark [] = ⟨[], []⟩ := rfl

@[simp] theorem cut_cons (isMark : α → Bool) (element : α) (others : List α) :
    cut isMark (element :: others) = extend isMark element (cut isMark others) := rfl

/-- Cutting loses nothing. -/
@[simp] theorem toList_cut (isMark : α → Bool) (sequence : List α) :
    (cut isMark sequence).toList = sequence := by
  induction sequence with
  | nil => rfl
  | cons element others ih =>
      simp only [cut_cons, extend]
      split <;> simp_all [toList]

end Runs

end ScoreSynth
