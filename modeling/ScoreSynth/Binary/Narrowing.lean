/-!
# Narrowing of doubles

A double becomes a single-precision number by rounding to the nearest one; a tie
goes to the even significand.
-/

namespace ScoreSynth.Binary

open Float.Model (UnpackedFloat Format)

/-- Round an unpacked number to single precision. -/
def narrowUnpacked : UnpackedFloat → UnpackedFloat
  | .finite sign significand exponent _ =>
      UnpackedFloat.round Format.binary32 sign significand exponent
  | .zero sign => .zero sign
  | .infinity sign => .infinity sign
  | .notANumber => .notANumber

/-- The nearest single-precision number. -/
def narrow (value : Float) : Float32 :=
  .ofModel (.pack (narrowUnpacked value.toModel.unpack))

end ScoreSynth.Binary
