import ScoreSynth.Fault
import ScoreSynth.Tempo
import ScoreSynth.Text.Numeral
import ScoreSynth.Token

/-!
# Global settings

A document begins with a block of global settings.  The only one there is is the
tempo; it is a positive whole number of percent, and of several the last one
holds.  The block ends at the first word that closes it.
-/

namespace ScoreSynth.Score

/-- Read the value of a tempo. -/
def tempoOfToken (token : Token) : Except Fault Tempo :=
  let percent := ("%".toList.isSuffixOf? token.text).bind
    (Numeral.natural? Numeral.bound32)
  match percent.filter (0 < ·) with
  | some percent => .ok ⟨percent⟩
  | none => .error (.malformed token.line (.badTempo token.text))

/-- Read the settings inside the block.  `last` is the tempo read so far. -/
def readGlobals (last : Option Tempo) : List Token → Except Fault (Option Tempo)
  | [] => .ok last
  | name :: others =>
      if ! name.is .tempo then
        .error (.malformed name.line (.unknownSetting name.text))
      else match others with
        | [] => .error (.malformed name.line .missingTempoValue)
        | value :: others => do
            let tempo ← tempoOfToken value
            readGlobals (some tempo) others

/-- Read the block of global settings.  The tokens behind it are handed back. -/
def takeGlobals (tokens : List Token) : Except Fault (Tempo × List Token) :=
  match tokens with
  | [] => .error (.malformed 2 .noGlobalStart)
  | first :: others => do
      if ! first.is .globalconfig then throw (.malformed first.line .noGlobalStart)
      match others.dropWhile (! ·.is .endglobalconfig) with
      | [] => throw (.malformed first.line .openGlobal)
      | _ :: body =>
          match ← readGlobals none (others.takeWhile (! ·.is .endglobalconfig)) with
          | none => throw (.malformed first.line .noTempo)
          | some tempo => return (tempo, body)

end ScoreSynth.Score
