import ScoreSynth.Proofs.Json
import ScoreSynth.Summary.Json

/-!
# Summaries can be read back

No name in a summary needs escapes, neither its keys nor those of the instruments, so what is
written of it is read back.
-/

namespace ScoreSynth

open Json (IsName Plain)

theorem Instrument.isName_name (instrument : Instrument) : IsName instrument.name := by
  cases instrument <;> decide

/-- The entry of a channel needs no escapes. -/
theorem ChannelSummary.plain_toJson (entry : ChannelSummary) : entry.toJson.Plain := by
  have keys : ∀ key ∈ ["index", "instrument", "volume", "transpose", "sample_rate", "notes",
      "duration_ms"], IsName key := by decide
  have samples : IsName "samples" := by decide
  refine .record (List.forall_mem_append.2 ⟨fun field member => ?_, ?_⟩)
    (List.forall_mem_append.2 ⟨?_, ?_⟩)
  · exact keys field.1 (List.mem_map_of_mem member)
  · exact List.forall_mem_map.2 fun _ _ => samples
  · simp only [List.forall_mem_cons]
    exact ⟨.whole _, .name entry.instrument.isName_name, .fraction _, .whole _, .whole _,
      .whole _, .whole _, List.forall_mem_nil _⟩
  · exact List.forall_mem_map.2 fun count _ => .whole count

namespace Summary

variable (summary : Summary)

/-- A summary needs no escapes. -/
theorem plain_toJson : summary.toJson.Plain := by
  have keys : ∀ key ∈ ["tempo_percent", "duration_multiplier", "duration_ms", "channels"],
      IsName key := by decide
  refine .record (fun field member => keys field.1 (List.mem_map_of_mem member)) ?_
  simp only [List.forall_mem_cons]
  refine ⟨.whole _, .fraction _, .whole _, .list ?_, List.forall_mem_nil _⟩
  exact List.forall_mem_map.2 fun entry _ => entry.plain_toJson

theorem read?_compact :
    ∃ other, Json.read? summary.compact = some other ∧
      other.withoutFractions = summary.toJson.withoutFractions :=
  Json.read?_compact summary.plain_toJson

theorem read?_pretty :
    ∃ other, Json.read? summary.pretty = some other ∧
      other.withoutFractions = summary.toJson.withoutFractions :=
  Json.read?_pretty summary.plain_toJson

end Summary

end ScoreSynth
