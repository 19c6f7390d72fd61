import ScoreSynth.Text.Numeral

/-!
# Shortest decimal text of a double

Several decimal numbers read back as the same double: those in the interval of
reals that round to it.  The text of a double is the one with the fewest digits,
and of those the nearest to the double; between two that are equally near, the
one whose last digit is even.

The search runs over decimal grids from coarse to fine.  On each grid only the
two points around the double can be in the interval and nearest to it, so the
first grid with such a point has the answer.
-/

namespace ScoreSynth.Decimal

open Float.Model (UnpackedFloat)

/-- The decimal number `digits * 10 ^ exponent`. -/
structure Scaled where
  digits : Nat
  exponent : Int
  deriving DecidableEq, Repr

/-- The reals that round to one double, in units of a power of two.  The unit is
a quarter of the distance to the next double, so that all three are whole. -/
structure Interval where
  low : Nat
  middle : Nat
  high : Nat
  /-- The unit is two to this power. -/
  unit : Int
  /-- Whether the ends round to the double too. -/
  closed : Bool

namespace Interval

/-- The least significand of the doubles that have all fifty-three bits. -/
def leastFull : Nat := 4503599627370496

/-- The interval around the double `significand * 2 ^ exponent`.  Below a power of
two the doubles lie twice as close, except among the smallest. -/
def around (significand : Nat) (exponent : Int) : Interval where
  low := 4 * significand -
    if significand = leastFull ∧ -1074 < exponent then 1 else 2
  middle := 4 * significand
  high := 4 * significand + 2
  unit := exponent - 2
  closed := significand % 2 = 0

/-- The factor that makes multiples of the unit comparable with multiples of a
grid's step. -/
def unitFactor (interval : Interval) (grid : Int) : Nat :=
  Nat.pow 2 interval.unit.toNat * Nat.pow 10 (-grid).toNat

/-- The factor that makes multiples of a grid's step comparable with multiples of
the unit. -/
def stepFactor (interval : Interval) (grid : Int) : Nat :=
  Nat.pow 10 grid.toNat * Nat.pow 2 (-interval.unit).toNat

/-- Whether `digits * 10 ^ grid` lies in the interval. -/
def contains (interval : Interval) (grid : Int) (digits : Nat) : Bool :=
  let point := digits * interval.stepFactor grid
  let low := interval.low * interval.unitFactor grid
  let high := interval.high * interval.unitFactor grid
  if interval.closed then low ≤ point && point ≤ high
  else low < point && point < high

/-- The grid's last point not above the double. -/
def below (interval : Interval) (grid : Int) : Nat :=
  interval.middle * interval.unitFactor grid / interval.stepFactor grid

/-- The nearer of the two points around the double, an even one if both are
equally near. -/
def nearer (interval : Interval) (grid : Int) : Nat :=
  let below := interval.below grid
  let double := 2 * (interval.middle * interval.unitFactor grid)
  match compare double ((2 * below + 1) * interval.stepFactor grid) with
  | .lt => below
  | .eq => below + below % 2
  | .gt => below + 1

/-- The point of a grid that stands for the double, if the grid has one. -/
def onGrid? (interval : Interval) (grid : Int) : Option Scaled :=
  let below := interval.below grid
  match interval.contains grid below, interval.contains grid (below + 1) with
  | true, true => some ⟨interval.nearer grid, grid⟩
  | true, false => some ⟨below, grid⟩
  | false, true => some ⟨below + 1, grid⟩
  | false, false => none

/-- The power of ten of the double's first digit. -/
def leadingPower (interval : Interval) : Int :=
  let shift := (-interval.unit).toNat
  let whole := interval.below (-(shift : Int))
  ((Nat.toDigits 10 whole).length : Int) - 1 - shift

/-- The number of digits that always suffice. -/
def enoughDigits : Nat := 17

/-- The shortest decimal number in the interval.  The first grid is coarser than
the double's first digit. -/
def shortest (interval : Interval) : Scaled :=
  let top := interval.leadingPower + 1
  let grids := (List.range (enoughDigits + 1)).map fun (digits : Nat) => top - digits
  (grids.findSome? interval.onGrid?).getD
    ⟨interval.below (top - enoughDigits), top - enoughDigits⟩

end Interval

/-- How the digits of a number are set out.  The position of the decimal point is
the number of digits before it; it is negative when zeros follow the point. -/
structure Layout where
  /-- Positions up to this one are written with a power of ten. -/
  lowest : Int
  /-- Positions beyond this one are written with a power of ten. -/
  highest : Int

namespace Layout

/-- Set out the digits of a positive number.  A point always has a digit on both
sides, and a power of ten is written without a plus sign. -/
def write (layout : Layout) (number : Scaled) : List Char :=
  let digits := Numeral.ofNat number.digits
  let point : Int := digits.length + number.exponent
  let zeros (count : Int) : List Char := List.replicate count.toNat '0'
  if point ≤ layout.lowest ∨ layout.highest < point then
    let fraction := match digits.tail with
      | [] => []
      | tail => '.' :: tail
    digits.take 1 ++ fraction ++ 'e' :: Numeral.ofInt (point - 1)
  else if point ≤ 0 then
    ['0', '.'] ++ zeros (-point) ++ digits
  else if 0 ≤ number.exponent then
    digits ++ zeros number.exponent ++ ['.', '0']
  else
    digits.take point.toNat ++ '.' :: digits.drop point.toNat

/-- The text of a number with its sign. -/
def signed (sign : UnpackedFloat.Sign) (magnitude : List Char) : List Char :=
  match sign with
  | .positive => magnitude
  | .negative => '-' :: magnitude

/-- The text of a double; `none` if it is not a finite number. -/
def text? (layout : Layout) (value : Float) : Option (List Char) :=
  match value.toModel.unpack with
  | .notANumber | .infinity _ => none
  | .zero sign => some (signed sign ['0', '.', '0'])
  | .finite sign significand exponent _ =>
      some (signed sign (layout.write (Interval.around significand exponent).shortest))

end Layout

end ScoreSynth.Decimal
