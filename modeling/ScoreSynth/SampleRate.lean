import ScoreSynth.Decimal.Literal
import ScoreSynth.Text.Numeral

/-!
# Sample rates

A channel's rate is written in one of three forms: the word `default`, a number
of kilohertz, or a whole number of hertz.  A kilohertz is 1024 hertz here, and
the fraction of its number is dropped before it is scaled.  A rate fits in
thirty-two bits and is never zero.
-/

namespace ScoreSynth.SampleRate

/-- The rate named `default`, which is also the rate of every rest. -/
def standard : Nat := 16384

/-- The number of hertz in a kilohertz. -/
def hertzPerKilohertz : Nat := 1024

/-- The rate of so many kilohertz, if that is a number and not a negative one. -/
def ofKilohertz? (kilohertz : Float) : Option Nat :=
  if ! kilohertz.isFinite || kilohertz < 0 then none
  else
    let rate := kilohertz.toUInt32.toNat * hertzPerKilohertz
    if rate < Numeral.bound32 then some rate else none

/-- A rate in one of the three forms, zero included.  The number of kilohertz is
read by `number?`. -/
def written? (number? : List Char → Option Float) (text : List Char) : Option Nat :=
  if text = "default".toList then some standard
  else match "kHz".toList.isSuffixOf? text with
    | some kilohertz => (number? kilohertz).bind ofKilohertz?
    | none =>
        match "Hz".toList.isSuffixOf? text with
        | some hertz => Numeral.natural? Numeral.bound32 hertz
        | none => none

/-- A usable rate: one of the three forms, and not zero. -/
def ofTextWith? (number? : List Char → Option Float) (text : List Char) : Option Nat :=
  (written? number? text).filter (0 < ·)

/-- A usable rate, its kilohertz read as a fractional decimal number. -/
def ofText? (text : List Char) : Option Nat :=
  ofTextWith? Decimal.number? text

end ScoreSynth.SampleRate
