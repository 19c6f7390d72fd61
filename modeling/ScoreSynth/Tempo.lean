/-!
# Tempo

The tempo says how fast written durations pass: at two hundred percent every
duration is half of what is written.
-/

namespace ScoreSynth

/-- The tempo of a score, in percent of the written speed. -/
structure Tempo where
  percent : Nat
  deriving DecidableEq, Repr

namespace Tempo

/-- The factor that takes a written duration to milliseconds.  It is infinite at
a tempo of zero, which no document can hold. -/
def multiplier (tempo : Tempo) : Float :=
  100 / tempo.percent.toFloat

end Tempo

end ScoreSynth
