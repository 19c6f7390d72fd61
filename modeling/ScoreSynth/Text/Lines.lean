/-!
# Lines

A text is cut at its line feeds.  A line feed ends its line, so a text that ends
in one has no empty last line, and a carriage return directly before a line feed
belongs to the line's end.  What follows the last line feed is a line of its own
unless it is empty; a carriage return at its end is an ordinary character.
-/

namespace ScoreSynth.Text

/-- Take away one carriage return at the end of a line. -/
def dropReturn (line : List Char) : List Char :=
  if line.getLast? = some '\r' then line.dropLast else line

/-- The lines of a text, without their ends. -/
def lines (text : List Char) : List (List Char) :=
  let pieces := text.splitOn '\n'
  let ended := pieces.dropLast.map dropReturn
  match pieces.getLast? with
  | none | some [] => ended
  | some last => ended ++ [last]

/-- The text that has some lines, each ended by a line feed. -/
def joinLines (lines : List (List Char)) : List Char :=
  lines.flatMap (· ++ ['\n'])

end ScoreSynth.Text
