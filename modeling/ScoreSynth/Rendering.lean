import ScoreSynth.Score
import ScoreSynth.Sound

/-!
# Rendering

A channel is rendered as one buffer: the samples of its notes, one note after
the other.  The size of the whole buffer is found and the buffer is asked for
first, so that a channel that is too long fails before any of its notes is
played; then each note asks for a buffer of its own.
-/

namespace ScoreSynth

/-- The samples of a channel. -/
structure Rendering where
  /-- The index of the channel. -/
  index : Nat
  /-- The rate at which the samples are to be played. -/
  rate : Nat
  samples : List Sample
  /-- The duration of the channel, in milliseconds. -/
  duration : Nat
  deriving DecidableEq

/-- The duration of the longest of some renderings. -/
def Rendering.longest (renderings : List Rendering) : Nat :=
  longestDuration (renderings.map (·.duration))

namespace Channel

/-- The rate at which a note is counted.  Rests have the standard rate. -/
def rateOf (channel : Channel) (note : Note) : Nat :=
  if note.isRest then SampleRate.standard else channel.settings.rate

/-- Count the samples of one more note. -/
def addCount (channel : Channel) (total : Nat) (note : Note) : Except Fault Nat := do
  let rate := channel.rateOf note
  let total := total + (← Sample.count note.duration rate)
  if total < Numeral.bound64 then return total
  else throw (.tooLong note.duration rate)

/-- The number of samples of a channel. -/
def size (channel : Channel) : Except Fault Nat :=
  channel.notes.toList.foldlM channel.addCount 0

/-- The samples of one note. -/
def pieceIn (channel : Channel) (grants : Nat → Bool) (note : Note) :
    Synthesis (List Sample) := do
  if note.isRest then Sample.silenceIn grants note.duration
  else
    let sounding ← channel.settings.soundingPitch note
    channel.settings.voice.soundIn grants sounding note.duration

/-- Put the samples of some notes behind those that have been collected. -/
def collect (channel : Channel) (memory : Memory) (request : Nat) (samples : List Sample) :
    List Note → Synthesis (List Sample)
  | [] => return samples
  | note :: others => do
      let piece ← channel.pieceIn (memory.grants request) note
      channel.collect memory (request + 1) (samples ++ piece) others

/-- Render a channel, with one buffer for the whole before any of its notes. -/
def renderIn (channel : Channel) (memory : Memory) : Synthesis Rendering := do
  let size ← channel.size
  if ! memory.grants 0 size then
    throw (.tooLong channel.duration channel.settings.rate)
  let samples ← channel.collect memory 1 [] channel.notes.toList
  return ⟨channel.index, channel.settings.rate, samples, channel.duration⟩

/-- Render a channel, if such buffers can be had at all. -/
def render (channel : Channel) : Synthesis Rendering :=
  channel.renderIn .ample

end Channel

namespace Score

/-- Render the channels of a score in order. -/
def render (score : Score) : Synthesis (List Rendering) :=
  score.channels.mapM Channel.render

end Score

end ScoreSynth
