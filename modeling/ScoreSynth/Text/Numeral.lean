/-!
# Whole numbers in decimal

A number is written with ASCII digits, after an optional plus sign, or after an
optional sign of either kind where negative numbers make sense.  Leading zeros
are harmless and a sign alone is no number.  Each reader takes the range its
caller can hold, and refuses what lies outside.
-/

namespace ScoreSynth.Numeral

/-- Digits alone, and at least one of them. -/
def digits? (text : List Char) : Option Nat :=
  if text ≠ [] ∧ text.all Char.isDigit then some (Nat.ofDigitChars 10 text 0) else none

/-- An unsigned number below `bound`. -/
def natural? (bound : Nat) (text : List Char) : Option Nat :=
  let magnitude := match text with
    | '+' :: digits => digits? digits
    | digits => digits? digits
  magnitude.filter (· < bound)

/-- A signed number of any size. -/
def signed? : List Char → Option Int
  | '+' :: digits => (digits? digits).map Int.ofNat
  | '-' :: digits => (digits? digits).map fun magnitude => -(magnitude : Int)
  | digits => (digits? digits).map Int.ofNat

/-- A signed number from `lowest` to `highest`. -/
def integer? (lowest highest : Int) (text : List Char) : Option Int :=
  (signed? text).filter fun number => lowest ≤ number && number ≤ highest

/-- The digits of a number, without leading zeros. -/
def ofNat (number : Nat) : List Char :=
  Nat.toDigits 10 number

/-- The text of a signed number.  Only negative numbers have a sign. -/
def ofInt : Int → List Char
  | .ofNat magnitude => ofNat magnitude
  | .negSucc less => '-' :: ofNat (less + 1)

/-- One more than the largest number of thirty-two bits. -/
def bound32 : Nat := 4294967296

/-- One more than the largest number of sixty-four bits. -/
def bound64 : Nat := 18446744073709551616

/-- The lowest signed number of thirty-two bits. -/
def lowest32 : Int := -2147483648

/-- The highest signed number of thirty-two bits. -/
def highest32 : Int := 2147483647

/-- A signed number of thirty-two bits. -/
def signed32? (text : List Char) : Option Int :=
  integer? lowest32 highest32 text

theorem ofNat_ne_nil (number : Nat) : ofNat number ≠ [] :=
  Nat.toDigits_ne_nil

theorem isDigit_of_mem_ofNat {number : Nat} {digit : Char}
    (member : digit ∈ ofNat number) : digit.isDigit = true :=
  Nat.isDigit_of_mem_toDigits (by decide) (by decide) member

/-- The digits of a number are read back. -/
@[simp] theorem digits?_ofNat (number : Nat) : digits? (ofNat number) = some number := by
  have digits : (ofNat number).all Char.isDigit = true :=
    List.all_eq_true.2 fun _ => isDigit_of_mem_ofNat
  rw [digits?, if_pos ⟨ofNat_ne_nil number, digits⟩]
  simp [ofNat]

/-- What the unsigned reader accepts is in range. -/
theorem lt_of_natural? {bound number : Nat} {text : List Char}
    (accepted : natural? bound text = some number) : number < bound := by
  have kept := (Option.filter_eq_some_iff.1 accepted).2
  simpa using kept

/-- What the signed reader accepts is in range. -/
theorem mem_of_integer? {lowest highest number : Int} {text : List Char}
    (accepted : integer? lowest highest text = some number) :
    lowest ≤ number ∧ number ≤ highest := by
  have kept := (Option.filter_eq_some_iff.1 accepted).2
  simpa using kept

/-- No number begins with a sign. -/
theorem ofNat_ne_cons {number : Nat} {first : Char} {others : List Char}
    (sign : first.isDigit = false) : ofNat number ≠ first :: others := by
  intro equal
  have digit : first.isDigit = true := isDigit_of_mem_ofNat (by rw [equal]; simp)
  simp_all

/-- The unsigned reader reads back what is in its range. -/
theorem natural?_ofNat {bound number : Nat} (below : number < bound) :
    natural? bound (ofNat number) = some number := by
  unfold natural?
  split
  · next equal => exact absurd equal (ofNat_ne_cons (by decide))
  · simp [below]

/-- The text of a signed number is read back. -/
@[simp] theorem signed?_ofInt (number : Int) : signed? (ofInt number) = some number := by
  cases number with
  | ofNat magnitude =>
      rw [ofInt, signed?.eq_def]
      split
      · next equal => exact absurd equal (ofNat_ne_cons (by decide))
      · next equal => exact absurd equal (ofNat_ne_cons (by decide))
      · rw [digits?_ofNat]
        rfl
  | negSucc less =>
      rw [ofInt, signed?, digits?_ofNat]
      rfl

/-- The signed reader reads back what is in its range. -/
theorem integer?_ofInt {lowest highest number : Int} (low : lowest ≤ number)
    (high : number ≤ highest) :
    integer? lowest highest (ofInt number) = some number := by
  simp [integer?, low, high]

end ScoreSynth.Numeral
