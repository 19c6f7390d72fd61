/-!
# Blank characters

Words are separated by blanks, and a line of blanks alone is an empty line.  The
blanks are the characters with the Unicode property `White_Space`, which is a
larger class than the four that `Char.isWhitespace` knows.
-/

namespace ScoreSynth.Text

/-- The code points with the property `White_Space`, as closed ranges in
ascending order. -/
def blankRanges : List (Nat × Nat) :=
  [(0x0009, 0x000D), (0x0020, 0x0020), (0x0085, 0x0085), (0x00A0, 0x00A0),
   (0x1680, 0x1680), (0x2000, 0x200A), (0x2028, 0x2029), (0x202F, 0x202F),
   (0x205F, 0x205F), (0x3000, 0x3000)]

/-- Whether a character separates words. -/
def isBlank (character : Char) : Bool :=
  blankRanges.any fun (first, last) =>
    first ≤ character.toNat && character.toNat ≤ last

/-- Among the characters of ASCII only controls and the space are blank. -/
theorem isBlank_eq_false {character : Char} (low : 33 ≤ character.toNat)
    (high : character.toNat ≤ 126) : isBlank character = false := by
  rw [Bool.eq_false_iff]
  intro blank
  simp only [isBlank, blankRanges, List.any_cons, List.any_nil, Bool.or_false,
    Bool.or_eq_true, Bool.and_eq_true, decide_eq_true_eq] at blank
  omega

/-- The class has twenty-five members. -/
example : blankRanges.foldl (fun total (first, last) => total + (last + 1 - first)) 0 = 25 := by
  decide

end ScoreSynth.Text
