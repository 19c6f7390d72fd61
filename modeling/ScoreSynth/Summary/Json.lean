import ScoreSynth.Json
import ScoreSynth.Summary

/-!
# Summaries as structured text

The fields stand in a fixed order.  A channel that has not been rendered has no
field for its samples.
-/

namespace ScoreSynth

namespace ChannelSummary

/-- The fields of a channel's entry. -/
def toJson (entry : ChannelSummary) : Json :=
  .record ([("index", .whole entry.index),
    ("instrument", .name entry.instrument.name),
    ("volume", .fraction entry.volume),
    ("transpose", .whole entry.transposition),
    ("sample_rate", .whole entry.rate),
    ("notes", .whole entry.notes),
    ("duration_ms", .whole entry.duration)] ++
    entry.samples.toList.map fun samples => ("samples", .whole samples))

end ChannelSummary

namespace Summary

/-- The fields of a summary. -/
def toJson (summary : Summary) : Json :=
  .record [("tempo_percent", .whole summary.tempo.percent),
    ("duration_multiplier", .fraction summary.multiplier),
    ("duration_ms", .whole summary.duration),
    ("channels", .list (summary.channels.map ChannelSummary.toJson))]

/-- A summary on one line. -/
def compact (summary : Summary) : String :=
  summary.toJson.compact

/-- A summary over several lines. -/
def pretty (summary : Summary) : String :=
  summary.toJson.pretty

end Summary

end ScoreSynth
