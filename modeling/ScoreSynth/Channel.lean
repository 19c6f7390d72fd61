import ScoreSynth.Settings

/-!
# Channels

A channel is one voice of a score: settings, and notes played one after the
other.  Notes are added one at a time.  A note that cannot be played, or that
would make the channel longer than sixty-four bits of milliseconds, is refused
and leaves the channel as it was.
-/

namespace ScoreSynth

/-- One voice of a score. -/
structure Channel where
  /-- The position in the document, counted from zero. -/
  index : Nat
  settings : Settings
  notes : Array Note
  /-- The sum of the durations of the notes, in milliseconds. -/
  duration : Nat
  deriving DecidableEq

namespace Channel

/-- A channel without notes. -/
def empty (index : Nat) (settings : Settings) : Channel :=
  ⟨index, settings, #[], 0⟩

/-- Add a note at the end. -/
def push (channel : Channel) (note : Note) : Except Fault Channel := do
  channel.settings.check note
  let duration := channel.duration + note.duration
  if duration < Numeral.bound64 then
    return { channel with notes := channel.notes.push note, duration }
  else throw (.durationOverflow note.line)

/-- Add the notes written by some tokens, one after the other. -/
def pushTokens (multiplier : Float) (channel : Channel) (tokens : List Token) :
    Except Fault Channel :=
  tokens.foldlM (fun channel token => do
    channel.push (← Note.ofToken multiplier token)) channel

end Channel

end ScoreSynth
