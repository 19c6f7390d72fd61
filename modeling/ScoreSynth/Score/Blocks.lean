import ScoreSynth.Fault
import ScoreSynth.Token

/-!
# Channel blocks

Behind the global settings a document is a sequence of channel blocks, each
ended by its closing word.  A block may begin with the word that announces it.
Inside, the words between the first word that opens settings and the next one
that closes them are the settings; all other words of the block are notes.  A
block without settings has an empty list of them.

Only the first token of a block may have a gap of more than one empty line above
it.
-/

namespace ScoreSynth.Score

/-- The tokens of one channel. -/
structure Block where
  settings : List Token
  notes : List Token
  deriving DecidableEq, Repr

/-- The largest gap above a token inside a block, in empty lines. -/
def largestGap : Nat := 1

namespace Block

/-- Drop the word that announces a block, if it is there. -/
def withoutMarker : List Token → List Token
  | [] => []
  | first :: others => if first.is .channel then others else first :: others

/-- Refuse a gap inside a block. -/
def checkGaps (tokens : List Token) : Except Fault Unit :=
  match tokens.tail.find? (largestGap < ·.blankLines) with
  | none => .ok ()
  | some token => .error (.misaligned token.line token.blankLines)

/-- Take the settings out of a block. -/
def separate (tokens : List Token) : Except Fault Block :=
  let before := tokens.takeWhile (! ·.is .config)
  match tokens.dropWhile (! ·.is .config) with
  | [] => .ok ⟨[], tokens⟩
  | opening :: others =>
      match others.dropWhile (! ·.is .endconfig) with
      | [] => .error (.malformed opening.line .openConfig)
      | _ :: after => .ok ⟨others.takeWhile (! ·.is .endconfig), before ++ after⟩

/-- The block that the tokens before a closing word make up. -/
def ofTokens (tokens : List Token) : Except Fault Block := do
  let tokens := withoutMarker tokens
  checkGaps tokens
  separate tokens

end Block

/-- Cut the tokens behind the global settings into blocks. -/
def splitBlocks (tokens : List Token) : Except Fault (List Block) := do
  let pieces := tokens.splitOnP (·.is .endchannel)
  let blocks ← pieces.dropLast.mapM Block.ofTokens
  match pieces.getLast? with
  | some (token :: _) => throw (.malformed token.line .trailingContent)
  | none | some [] =>
      if blocks.isEmpty then throw (.malformed 2 .noChannels)
      return blocks

end ScoreSynth.Score
