import ScoreSynth.Text.Numeral

/-!
# Spelled numbers

An unsigned number is spelled with ASCII digits, at least one of them, perhaps behind a
plus sign (`Numeral.Spells`).  The unsigned reader accepts these texts and no others, as
long as the number is below its bound.  A signed number may have a minus sign instead
(`Numeral.SpellsSigned`), and its reader has a lowest and a highest number.
-/

namespace ScoreSynth.Numeral

/-- Whether a text spells a number: digits, and perhaps a plus sign before them. -/
def Spells (text : List Char) (number : Nat) : Prop :=
  ∃ digits, (text = digits ∨ text = '+' :: digits) ∧ digits ≠ [] ∧
    (∀ digit ∈ digits, digit.isDigit = true) ∧ Nat.ofDigitChars 10 digits 0 = number

/-- Whether a text spells a number of either sign: digits, and perhaps one sign before
them. -/
def SpellsSigned (text : List Char) (number : Int) : Prop :=
  ∃ digits, digits ≠ [] ∧ (∀ digit ∈ digits, digit.isDigit = true) ∧
    ((text = digits ∨ text = '+' :: digits) ∧ number = Nat.ofDigitChars 10 digits 0 ∨
      text = '-' :: digits ∧ number = -(Nat.ofDigitChars 10 digits 0 : Int))

theorem digits?_eq_some_iff {text : List Char} {number : Nat} :
    digits? text = some number ↔
      text ≠ [] ∧ (∀ digit ∈ text, digit.isDigit = true) ∧
        Nat.ofDigitChars 10 text 0 = number := by
  rw [digits?, Option.ite_none_right_eq_some, List.all_eq_true, and_assoc, Option.some.injEq]

/-- The digits of a number spell it. -/
theorem spells_ofNat (number : Nat) : Spells (ofNat number) number :=
  ⟨ofNat number, .inl rfl, digits?_eq_some_iff.1 (digits?_ofNat number)⟩

/-- The unsigned reader reads what is spelled, if the number is below its bound. -/
theorem natural?_eq_some_iff {bound number : Nat} {text : List Char} :
    natural? bound text = some number ↔ Spells text number ∧ number < bound := by
  unfold natural?
  rw [Option.filter_eq_some_iff, decide_eq_true_iff]
  refine and_congr_left fun _ => ?_
  constructor
  · intro read
    split at read
    · next digits => exact ⟨digits, .inr rfl, digits?_eq_some_iff.1 read⟩
    · exact ⟨text, .inl rfl, digits?_eq_some_iff.1 read⟩
  · intro spelled
    rcases spelled with ⟨digits, rfl | rfl, written⟩
    · split
      · next others =>
          -- A sign is no digit.
          have sign : Char.isDigit '+' = true := written.2.1 _ List.mem_cons_self
          exact absurd sign (by decide)
      · exact digits?_eq_some_iff.2 written
    · exact digits?_eq_some_iff.2 written

theorem signed?_eq_some_iff {text : List Char} {number : Int} :
    signed? text = some number ↔ SpellsSigned text number := by
  -- The definition makes an integer of the number first, and then puts the sign on it.
  have minus (digits : List Char) : ((digits? digits).map fun magnitude => -(magnitude : Int)) =
      (digits? digits).map fun magnitude : Nat => -(magnitude : Int) := by
    cases digits? digits <;> rfl
  rw [signed?.eq_def]
  simp only [minus]
  constructor
  · intro read
    split at read
    all_goals
      rcases Option.map_eq_some_iff.1 read with ⟨magnitude, digits, rfl⟩
      rcases digits?_eq_some_iff.1 digits with ⟨some, digitsAre, rfl⟩
    · exact ⟨_, some, digitsAre, .inl ⟨.inr rfl, rfl⟩⟩
    · exact ⟨_, some, digitsAre, .inr ⟨rfl, rfl⟩⟩
    · exact ⟨_, some, digitsAre, .inl ⟨.inl rfl, rfl⟩⟩
  · intro spelled
    rcases spelled with ⟨digits, some, digitsAre, written⟩
    have read := digits?_eq_some_iff.2 ⟨some, digitsAre, rfl⟩
    rcases written with ⟨rfl | rfl, rfl⟩ | ⟨rfl, rfl⟩
    · split
      -- A sign is no digit.
      · exact absurd (digitsAre _ List.mem_cons_self) (by decide)
      · exact absurd (digitsAre _ List.mem_cons_self) (by decide)
      · exact Option.map_eq_some_iff.2 ⟨_, read, rfl⟩
    · exact Option.map_eq_some_iff.2 ⟨_, read, rfl⟩
    · exact Option.map_eq_some_iff.2 ⟨_, read, rfl⟩

/-- What has a character that is neither a digit nor a sign is no number. -/
theorem signed?_eq_none {text : List Char} {character : Char} (member : character ∈ text)
    (noDigit : character.isDigit = false) (noSign : character ≠ '+' ∧ character ≠ '-') :
    signed? text = none := by
  rw [Option.eq_none_iff_forall_ne_some]
  intro number read
  obtain ⟨digits, _, areDigits, written⟩ := signed?_eq_some_iff.1 read
  have inside : character ∈ digits := by
    rcases written with ⟨rfl | rfl, _⟩ | ⟨rfl, _⟩
    · exact member
    · exact (List.mem_cons.1 member).resolve_left noSign.1
    · exact (List.mem_cons.1 member).resolve_left noSign.2
  have digit := areDigits character inside
  rw [noDigit] at digit
  cases digit

/-- The signed reader reads what is spelled, if the number is in its range. -/
theorem integer?_eq_some_iff {lowest highest number : Int} {text : List Char} :
    integer? lowest highest text = some number ↔
      SpellsSigned text number ∧ lowest ≤ number ∧ number ≤ highest := by
  rw [integer?, Option.filter_eq_some_iff, Bool.and_eq_true, decide_eq_true_iff,
    decide_eq_true_iff, signed?_eq_some_iff]

end ScoreSynth.Numeral
