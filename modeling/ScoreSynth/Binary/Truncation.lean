/-!
# Truncation of doubles

A double becomes a whole number by dropping its fraction.  What lies outside the
range of the result becomes the nearer end of the range, and a value that is not
a number becomes zero.
-/

namespace ScoreSynth.Binary

/-- A double without its fraction, kept between `lowest` and `highest`.  The
ends must not exceed sixty-four bits. -/
def truncate (lowest highest : Int) (value : Float) : Int :=
  if value < 0 then max lowest (-((-value).toUInt64.toNat : Int))
  else min highest (value.toUInt64.toNat : Int)

/-- What is not a number becomes zero. -/
example : truncate (-128) 127 (0 / 0) = 0 := by
  decide +kernel

end ScoreSynth.Binary
