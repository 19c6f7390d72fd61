import ScoreSynth.CommandLine.Arguments
import ScoreSynth.Gzip.Member
import ScoreSynth.Json

/-!
# What the tools leave to libraries

The tools decompress documents, read their arguments and write structured text.
How they do it is no part of what they are, and is left open; one way of doing it
is built in.
-/

namespace ScoreSynth.CommandLine

/-- What the tools leave to libraries. -/
structure Libraries where
  /-- What compressed content holds. -/
  decompress : List UInt8 → Except Gzip.Fault (List UInt8)
  /-- The options of the player. -/
  playerOptions : List (List Char) → Except Stop PlayerOptions
  /-- The options of the summarizer. -/
  summarizerOptions : List (List Char) → Except Stop SummarizerOptions
  /-- The text of a value, on one line or over several, or why it has none. -/
  writeJson : (compact : Bool) → Json → Except String String

/-- The libraries that are built in. -/
def Libraries.builtIn : Libraries where
  decompress := Gzip.gunzip
  playerOptions := PlayerOptions.read
  summarizerOptions := SummarizerOptions.read
  writeJson := fun compact value => .ok (if compact then value.compact else value.pretty)

/-- Read the arguments of a tool. -/
def Libraries.request (libraries : Libraries) :
    Tool → List (List Char) → Except Stop Request
  | .player, arguments => (libraries.playerOptions arguments).map (·.request)
  | .summarizer, arguments => (libraries.summarizerOptions arguments).map (·.request)

end ScoreSynth.CommandLine
