import ScoreSynth.Fault
import ScoreSynth.Text.Lines
import ScoreSynth.Text.Words
import ScoreSynth.Token

/-!
# Scanning a document

The first line of a document is its header and holds no tokens.  The second line
must begin with the word that opens the global settings, in its first column.
From there on every word outside a comment is a token.  A line of blanks alone
is counted for the next line that is not one; a line that holds only a comment
is not blank, has no token and ends the count.
-/

namespace ScoreSynth

namespace Document

/-- How the first line begins. -/
def header : List Char :=
  "#META filetype nsmf".toList

/-- The mark that may stand, any number of times, before the header. -/
def byteOrderMark : Char := '\ufeff'

/-- Whether a line is the header of a document. -/
def isHeader (line : List Char) : Bool :=
  header.isPrefixOf (line.dropWhile (· = byteOrderMark))

/-- Whether a line begins with the word that opens the global settings. -/
def opensGlobal (line : List Char) : Bool :=
  Keyword.globalconfig.text.isPrefixOf line

end Document

namespace Token

/-- The tokens of one line.  Only the first one remembers the gap above. -/
def ofLine (number blankLines : Nat) (line : List Char) : List Token :=
  match Text.words (Text.withoutComment line) with
  | [] => []
  | first :: others =>
      ⟨first, number, blankLines⟩ :: others.map fun word => ⟨word, number, 0⟩

/-- The tokens of consecutive lines, the first of which has the given number and
the given count of empty lines above it. -/
def ofLines (number blankLines : Nat) : List (List Char) → List Token
  | [] => []
  | line :: others =>
      if Text.isBlankLine line then ofLines (number + 1) (blankLines + 1) others
      else ofLine number blankLines line ++ ofLines (number + 1) 0 others

/-- The tokens of a document. -/
def scan (source : List Char) : Except Fault (List Token) :=
  match Text.lines source with
  | [] => .error (.malformed 1 .noHeader)
  | first :: others =>
      if ! Document.isHeader first then .error (.malformed 1 .noHeader)
      else match others with
        | [] => .error (.malformed 2 .noGlobalLine)
        | second :: _ =>
            if ! Document.opensGlobal second then .error (.malformed 2 .noGlobalLine)
            else .ok (ofLines 2 0 others)

end Token

end ScoreSynth
