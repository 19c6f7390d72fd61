import ScoreSynth.Text.Blank

/-!
# Words and comments

A word is a longest run of characters that are not blank.  A comment begins at
the first semicolon of a line and reaches to the line's end.
-/

namespace ScoreSynth.Text

/-- The words of a line, in order. -/
def words (line : List Char) : List (List Char) :=
  (line.splitOnP isBlank).filter (! ·.isEmpty)

/-- The part of a line before its comment. -/
def withoutComment (line : List Char) : List Char :=
  line.takeWhile (· ≠ ';')

/-- Whether a line holds blanks alone.  A line that holds a comment is not blank. -/
def isBlankLine (line : List Char) : Bool :=
  line.all isBlank

/-- Some words on one line, separated by single spaces. -/
def joinWords (words : List (List Char)) : List Char :=
  [' '].intercalate words

/-- Whether a text is a word outside a comment: it has a character, and none that
would end it. -/
def IsWord (text : List Char) : Prop :=
  text ≠ [] ∧ ∀ character ∈ text, isBlank character = false ∧ character ≠ ';'

instance (text : List Char) : Decidable (IsWord text) :=
  decidable_of_iff
    (text ≠ [] ∧ text.all (fun character => ! isBlank character && character != ';') = true)
    (by simp [IsWord])

end ScoreSynth.Text
