import ScoreSynth.CommandLine.Libraries
import ScoreSynth.Proofs.CommandLine.Arguments
import ScoreSynth.Proofs.Json

/-!
# What the tools expect of libraries

The tools expect that the usual arguments are read as the options they stand for
(`Libraries.ReadsArguments`), and that structured text has the value it was written for
(`Libraries.WritesJson`).  They expect nothing of decompression.  The libraries that are built in
do what is expected.
-/

namespace ScoreSynth.CommandLine.Libraries

/-- Whether the usual arguments are read as the options they stand for. -/
structure ReadsArguments (libraries : Libraries) : Prop where
  check {path : List Char} : IsPath path →
    libraries.playerOptions (checkArguments path) =
      .ok { input := some path, listInstruments := false, check := true, verbose := false }
  summary {path : List Char} : IsPath path → ∀ compact,
    libraries.summarizerOptions (summaryArguments compact path []) =
      .ok { input := path, output := none, compact := compact }
  destination {path destination : List Char} : IsPath path → IsPath destination → ∀ compact,
    libraries.summarizerOptions
        (summaryArguments compact path (destinationArguments destination)) =
      .ok { input := path, output := some destination, compact := compact }

/-- Whether a reader of structured text finds there the value it was written for.  How exactly
it reads fractions is left open. -/
def WritesJson (libraries : Libraries) (read : String → Option Json) : Prop :=
  ∀ (compact : Bool) {value : Json}, value.Plain → ∃ text other,
    libraries.writeJson compact value = .ok text ∧ read text = some other ∧
      other.withoutFractions = value.withoutFractions

namespace ReadsArguments

variable {libraries : Libraries} (reads : libraries.ReadsArguments) {path destination : List Char}

include reads

theorem request_check (isPath : IsPath path) :
    libraries.request .player (checkArguments path) = .ok (.check (.file path)) := by
  rw [request, reads.check isPath]
  rfl

theorem request_summary (isPath : IsPath path) (compact : Bool) :
    libraries.request .summarizer (summaryArguments compact path []) =
      .ok (.summarize path none compact) := by
  rw [request, reads.summary isPath]
  rfl

theorem request_destination (isPath : IsPath path) (isDestination : IsPath destination)
    (compact : Bool) :
    libraries.request .summarizer
        (summaryArguments compact path (destinationArguments destination)) =
      .ok (.summarize path (some destination) compact) := by
  rw [request, reads.destination isPath isDestination]
  rfl

end ReadsArguments

/-! ## The libraries that are built in -/

theorem readsArguments_builtIn : builtIn.ReadsArguments where
  check isPath := PlayerOptions.read_checkArguments isPath
  summary isPath compact := SummarizerOptions.read_summaryArguments isPath compact
  destination isPath isDestination compact :=
    SummarizerOptions.read_destinationArguments isPath isDestination compact

theorem writesJson_builtIn : builtIn.WritesJson Json.read? := by
  intro compact value plain
  cases compact with
  | false =>
      obtain ⟨other, read, same⟩ := Json.read?_pretty plain
      exact ⟨value.pretty, other, rfl, read, same⟩
  | true =>
      obtain ⟨other, read, same⟩ := Json.read?_compact plain
      exact ⟨value.compact, other, rfl, read, same⟩

end ScoreSynth.CommandLine.Libraries
