import ScoreSynth.Decimal.Literal
import ScoreSynth.Json
import ScoreSynth.Text.Blank

/-!
# Reading structured text

Structured text is taken apart into brackets, quoted names and words, and then read
from left to right with the lists and records that are still open.  The reader is for
text that has been written by a writer, so it takes commas and colons for blanks, and
a word that is no number for `null`.
-/

namespace ScoreSynth.Json

/-- A part of structured text. -/
inductive Part where
  /-- A bracket. -/
  | mark (bracket : Char)
  /-- What stands between quotes. -/
  | quoted (text : List Char)
  | word (text : List Char)
  deriving DecidableEq, Repr

/-- Whether a character is a bracket. -/
def isMark (character : Char) : Bool :=
  character ∈ ['[', ']', '\x7b', '\x7d']

/-- Whether a character only keeps parts apart. -/
def isSeparator (character : Char) : Bool :=
  Text.isBlank character || character = ',' || character = ':'

/-- A word that has ended, if anything of it has been read. -/
def ended (word : List Char) : List Part :=
  if word = [] then [] else [.word word]

mutual

/-- The parts of a text behind the beginning of a word. -/
def parts (begun : List Char) : List Char → List Part
  | [] => ended begun
  | character :: others =>
      if character = '"' then ended begun ++ quotedParts [] others
      else if isMark character then ended begun ++ .mark character :: parts [] others
      else if isSeparator character then ended begun ++ parts [] others
      else parts (begun ++ [character]) others

/-- The parts of a text behind a quote and what follows it.  What is not closed is no
part. -/
def quotedParts (begun : List Char) : List Char → List Part
  | [] => []
  | character :: others =>
      if character = '"' then .quoted begun :: parts [] others
      else quotedParts (begun ++ [character]) others

end

/-- What a word stands for. -/
def ofWord (text : List Char) : Json :=
  match Numeral.signed? text with
  | some number => .whole number
  | none =>
      match Decimal.number? text with
      | some value => .fraction value
      | none => .null

/-- A list or a record that is still open. -/
inductive Frame where
  | list (items : List Json)
  /-- A record, perhaps with the key of the field that is read. -/
  | record (fields : List (String × Json)) (key : Option String)

namespace Frame

/-- Put a value into a frame.  In a record it belongs to the key before it, or is a key
itself. -/
def put? (value : Json) : Frame → Option Frame
  | list items => some (list (items ++ [value]))
  | record fields (some key) => some (record (fields ++ [(key, value)]) none)
  | record fields none =>
      match value with
      | .name key => some (record fields (some key))
      | _ => none

/-- What a frame stands for when a bracket closes it. -/
def close? (bracket : Char) : Frame → Option Json
  | list items => if bracket = ']' then some (.list items) else none
  | record fields key =>
      if bracket = '\x7d' ∧ key = none then some (.record fields) else none

end Frame

/-- Put a value into the innermost frame. -/
def put? (value : Json) : List Frame → Option (List Frame)
  | [] => none
  | frame :: outer => (frame.put? value).map (· :: outer)

/-- Read one part. -/
def take? (frames : List Frame) : Part → Option (List Frame)
  | .word text => put? (ofWord text) frames
  | .quoted text => put? (.name (String.ofList text)) frames
  | .mark bracket =>
      if bracket = '[' then some (.list [] :: frames)
      else if bracket = '\x7b' then some (.record [] none :: frames)
      else match frames with
        | [] => none
        | frame :: outer => (frame.close? bracket).bind (put? · outer)

/-- Read a value.  The outermost frame holds nothing else in the end. -/
def read? (text : String) : Option Json :=
  match (parts [] text.toList).foldlM take? [.list []] with
  | some [.list [value]] => some value
  | _ => none

end ScoreSynth.Json
