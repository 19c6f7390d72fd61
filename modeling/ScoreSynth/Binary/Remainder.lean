/-!
# Remainders of doubles

The remainder of a division whose quotient is truncated: it has the sign of the
dividend and is smaller than the divisor.  It is computed from the two
significands, brought to a common exponent, and so it is exact.
-/

namespace ScoreSynth.Binary

open Float.Model (UnpackedFloat Format)

/-- The remainder of two finite significands.  The common exponent is the smaller
of the two. -/
def remainderOfFinite (sign : UnpackedFloat.Sign) (dividend : Nat) (exponent : Int)
    (divisor : Nat) (divisorExponent : Int) : UnpackedFloat :=
  let common := min exponent divisorExponent
  let left := dividend <<< (exponent - common).toNat
  let right := divisor <<< (divisorExponent - common).toNat
  if left % right = 0 then .zero sign
  else UnpackedFloat.round Format.binary64 sign (left % right) common

/-- The remainder of two unpacked doubles.  It is no number when the dividend is
infinite or the divisor zero. -/
def remainderOfUnpacked : UnpackedFloat → UnpackedFloat → UnpackedFloat
  | .notANumber, _ | _, .notANumber => .notANumber
  | .infinity _, _ | _, .zero _ => .notANumber
  | .zero sign, _ => .zero sign
  | .finite sign significand exponent positive, .infinity _ =>
      .finite sign significand exponent positive
  | .finite sign dividend exponent _, .finite _ divisor divisorExponent _ =>
      remainderOfFinite sign dividend exponent divisor divisorExponent

/-- The exact remainder of two doubles. -/
def remainder (dividend divisor : Float) : Float :=
  .ofModel (.pack (remainderOfUnpacked dividend.toModel.unpack divisor.toModel.unpack))

end ScoreSynth.Binary
