import ScoreSynth.Text.Lines
import ScoreSynth.Text.Words

/-!
# Edits without meaning

The same words can be laid out in many ways.  The line feeds of a text can be preceded
by carriage returns, and from the second line on a comment can be put on a line of its
own or at the end of any line.
-/

namespace ScoreSynth.Text

/-- Put a carriage return before every line feed. -/
def withReturns (text : List Char) : List Char :=
  text.flatMap fun character => if character = '\n' then ['\r', '\n'] else [character]

/-- Whether a line holds a comment, perhaps behind blanks, and nothing else. -/
def IsComment (line : List Char) : Prop :=
  ∃ blanks comment, line = blanks ++ ';' :: comment ∧
    (∀ character ∈ blanks, isBlank character = true) ∧ '\n' ∉ line

/-- Whether a text is what ends a line. -/
def IsFeed (text : List Char) : Prop :=
  text = ['\n'] ∨ text = ['\r', '\n']

/-- Whether a text is what can follow the last character of a line. -/
def FollowsLine (text : List Char) : Prop :=
  text = [] ∨ ∃ feed below, IsFeed feed ∧ text = feed ++ below

/-- Putting a comment into a text, below its first line.  `upper` holds lines that are
each ended by a line feed. -/
inductive Edit : List Char → List Char → Prop where
  /-- A line for the comment, directly above a line or behind the last one. -/
  | insert {upper : List (List Char)} {comment below : List Char}
      (whole : ∀ line ∈ upper, '\n' ∉ line) (inner : 2 ≤ upper.length)
      (only : IsComment comment) :
      Edit (joinLines upper ++ below) (joinLines upper ++ comment ++ '\n' :: below)
  /-- A last line for the comment that no line feed ends. -/
  | insertUnended {upper : List (List Char)} {comment : List Char}
      (whole : ∀ line ∈ upper, '\n' ∉ line) (inner : 2 ≤ upper.length)
      (only : IsComment comment) :
      Edit (joinLines upper) (joinLines upper ++ comment)
  /-- A line for the comment behind a last line that no line feed ends. -/
  | insertLast {upper : List (List Char)} {last feed comment ending : List Char}
      (whole : ∀ line ∈ upper, '\n' ∉ line) (inner : upper ≠ [])
      (unended : '\n' ∉ last) (nonempty : last ≠ [])
      (feeds : IsFeed feed) (only : IsComment comment)
      (ended : ending = [] ∨ ending = ['\n']) :
      Edit (joinLines upper ++ last) (joinLines upper ++ last ++ feed ++ comment ++ ending)
  /-- A comment at the end of a line, blank or not. -/
  | append {upper : List (List Char)} {line comment below : List Char}
      (whole : ∀ line ∈ upper, '\n' ∉ line) (inner : upper ≠ [])
      (inside : '\n' ∉ line ++ comment) (follows : FollowsLine below) :
      Edit (joinLines upper ++ line ++ below) (joinLines upper ++ line ++ ';' :: comment ++ below)

end ScoreSynth.Text
