import ScoreSynth.Channel
import ScoreSynth.Score.Blocks
import ScoreSynth.Score.Global
import ScoreSynth.Score.Loops
import ScoreSynth.Token.Scan

/-!
# Scores

A score is a tempo and at least one channel.  It is read from a document in
passes over the whole of it: scanning, global settings, loops, blocks, and last
the channels in order.  The first pass that fails decides which fault is
reported.
-/

namespace ScoreSynth

/-- A document that has been read. -/
structure Score where
  tempo : Tempo
  channels : List Channel
  deriving DecidableEq

/-- The largest of some durations; zero for none. -/
def longestDuration (durations : List Nat) : Nat :=
  durations.foldl max 0

namespace Score

/-- Build the channel at a position from its block. -/
def buildChannel (multiplier : Float) (index : Nat) (block : Block) :
    Except Fault Channel := do
  let settings ← Settings.ofWords (block.settings.map (·.text))
  (Channel.empty index settings).pushTokens multiplier block.notes

/-- Build the channels of a list of blocks, the first of which has the given
position. -/
def buildChannels (multiplier : Float) (blocks : List Block) (index : Nat) :
    Except Fault (List Channel) :=
  (blocks.zipIdx index).mapM fun (block, position) =>
    buildChannel multiplier position block

/-- The channels written by the tokens behind the global settings. -/
def compile (multiplier : Float) (tokens : List Token) :
    Except Fault (List Channel) := do
  let expanded ← expandLoops tokens
  let blocks ← splitBlocks expanded
  buildChannels multiplier blocks 0

/-- Read a document. -/
def parse (source : List Char) : Except Fault Score := do
  let tokens ← Token.scan source
  let (tempo, body) ← takeGlobals tokens
  let channels ← compile tempo.multiplier body
  return ⟨tempo, channels⟩

/-- The duration of each channel, in order. -/
def durations (score : Score) : List Nat :=
  score.channels.map (·.duration)

/-- The duration of the longest channel. -/
def duration (score : Score) : Nat :=
  longestDuration score.durations

end Score

end ScoreSynth
