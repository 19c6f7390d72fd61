import ScoreSynth.Rendering

/-!
# Summaries

A summary says what is in a score: its tempo, its duration, and an entry for each
channel.  Once the score has been rendered, each entry can also hold the number
of samples; the rendering of an entry is found by its channel's index.
-/

namespace ScoreSynth

/-- What a summary says about a channel. -/
structure ChannelSummary where
  index : Nat
  instrument : Instrument
  volume : Float
  transposition : Int
  rate : Nat
  /-- The number of notes. -/
  notes : Nat
  duration : Nat
  /-- The number of samples, if the channel has been rendered. -/
  samples : Option Nat
  deriving DecidableEq

/-- What a summary says about a score. -/
structure Summary where
  tempo : Tempo
  /-- The factor from written durations to milliseconds. -/
  multiplier : Float
  /-- The duration of the longest channel. -/
  duration : Nat
  channels : List ChannelSummary
  deriving DecidableEq

namespace ChannelSummary

/-- The entry of a channel that has not been rendered. -/
def ofChannel (channel : Channel) : ChannelSummary where
  index := channel.index
  instrument := channel.settings.instrument
  volume := channel.settings.volume
  transposition := channel.settings.transposition
  rate := channel.settings.rate
  notes := channel.notes.size
  duration := channel.duration
  samples := none

/-- Take the number of samples from the first rendering of the channel. -/
def withRenderings (entry : ChannelSummary) (renderings : List Rendering) :
    ChannelSummary :=
  { entry with
    samples := (renderings.find? (·.index = entry.index)).map (·.samples.length) }

end ChannelSummary

namespace Summary

/-- The summary of a score. -/
def ofScore (score : Score) : Summary where
  tempo := score.tempo
  multiplier := score.tempo.multiplier
  duration := score.duration
  channels := score.channels.map ChannelSummary.ofChannel

/-- Fill in the numbers of samples. -/
def withRenderings (summary : Summary) (renderings : List Rendering) : Summary :=
  { summary with channels := summary.channels.map (·.withRenderings renderings) }

end Summary

end ScoreSynth
