import ScoreSynth.CommandLine.Answer
import ScoreSynth.Proofs.CommandLine.Libraries
import ScoreSynth.Proofs.Summary
import ScoreSynth.Proofs.Summary.Json

/-!
# The tools agree

What the tools say about a document does not depend on the tape: a document is rendered on
all tapes or on none, and the samples of a channel are as many as its notes say
(`Settled`).  A check and a summary are therefore two views of one document, however they
come to their numbers, and whatever library decompresses the document, reads the arguments and
writes the summary (`run_agrees`).
-/

namespace ScoreSynth

open Stepwise

/-! ## Channels and their lines -/

namespace Channel

/-- The line of a check for a channel that can be rendered. -/
def checkLine (channel : Channel) : String :=
  s!"channel {channel.index}: {channel.sampleCount} samples at " ++
    s!"{channel.settings.rate}Hz, {channel.duration}ms\n"

theorem HasFigures.checkLine_eq {channel : Channel} {rendering : Rendering}
    (figures : channel.HasFigures rendering) :
    CommandLine.checkLine rendering = channel.checkLine := by
  rw [CommandLine.checkLine, figures.index_eq, figures.length_samples, figures.rate_eq,
    figures.duration_eq]
  rfl

theorem map_checkLine {channels : List Channel} {renderings : List Rendering}
    (figures : List.Forall₂ HasFigures channels renderings) :
    renderings.map CommandLine.checkLine = channels.map checkLine :=
  (map_eq_of_forall₂ figures fun _ _ matched => matched.checkLine_eq.symm).symm

end Channel

namespace CommandLine

/-! ## What a document comes to -/

/-- Whether reading a document breaks at a sum that does not fit. -/
def Overflows (document : Except LoadFault (List Char)) : Prop :=
  ∃ text pitch transposition, document = .ok text ∧
    Score.parse text = .error (.sumOverflow pitch transposition)

/-- What rendering a document comes to, whatever the tape. -/
inductive Settled (document : Except LoadFault (List Char)) : Prop where
  | fails (failure : Failure) (code : failure.code = 1 ∨ Overflows document)
      (failed : ∀ tape, renderDocument tape document = .error failure)
  | succeeds (text : List Char) (score : Score) (loaded : document = .ok text)
      (read : Score.parse text = .ok score)
      (rendered : ∀ tape, ∃ renderings, renderDocument tape document = .ok (score, renderings) ∧
        List.Forall₂ Channel.HasFigures score.channels renderings)

theorem renderDocument_ok {tape : RandomTape} {text : List Char} {score : Score}
    (read : Score.parse text = .ok score) :
    renderDocument tape (.ok text) =
      ((score.render.run tape).1.mapError .score).map fun renderings => (score, renderings) := by
  simp only [renderDocument, Except.mapError, read, ok_bind]
  cases (score.render.run tape).1 with
  | error fault => rfl
  | ok renderings => rfl

/-- Loading and reading a document do not look at the tape, and rendering a score that has
been read fails with a report on all tapes or on none. -/
theorem settled (document : Except LoadFault (List Char)) : Settled document := by
  cases document with
  | error fault => exact .fails (.load fault) (.inl rfl) fun tape => rfl
  | ok text =>
      cases read : Score.parse text with
      | error fault =>
          refine .fails (.score fault) ?_ fun tape => ?_
          · cases fault with
            | sumOverflow pitch transposition => exact .inr ⟨text, pitch, transposition, rfl, read⟩
            | _ => exact .inl rfl
          · simp only [renderDocument, Except.mapError, read, ok_bind, error_bind]
      | ok score =>
          cases score.steady_render with
          | inl done =>
              refine .succeeds text score rfl read fun tape => ?_
              rcases done tape with ⟨renderings, rendered⟩
              refine ⟨renderings, ?_, Score.hasFigures_of_render rendered⟩
              rw [renderDocument_ok read, rendered]
              rfl
          | inr stopped =>
              rcases stopped with ⟨fault, failed⟩
              have long := Score.failsOnly_render (Score.valid_of_parse read)
                (.fresh fun _ => 0) fault (failed _)
              rcases long with ⟨duration, rate, rfl⟩
              refine .fails (.score (.tooLong duration rate)) (.inl rfl) fun tape => ?_
              rw [renderDocument_ok read, failed tape]
              rfl

/-! ## What the tools answer -/

/-- Why a document is refused, told by either tool. -/
def Failure.answer (failure : Failure) : Answer :=
  .failure failure.code failure.message

theorem Failure.code_ne_zero (failure : Failure) : failure.code ≠ 0 := by
  cases failure with
  | load fault => exact Nat.one_ne_zero
  | score fault =>
      rw [Failure.code]
      split
      · decide
      · decide

variable {libraries : Libraries} {path : List Char} {disk : Disk}

/-- Whatever a tool is asked about a document, it answers alike if that is refused. -/
theorem run_of_failed {tool : Tool} {arguments : List (List Char)} {request : Request}
    {tape : RandomTape} {failure : Failure}
    (requested : libraries.request tool arguments = .ok request)
    (source : request.source? = some (.file path))
    (failed : renderDocument tape (Document.loadWith libraries.decompress disk path) =
      .error failure) (input : List UInt8) :
    libraries.run tool arguments input tape disk = (failure.answer, disk) := by
  simp only [Libraries.run, requested, source, Libraries.loadSource]
  cases request with
  | listInstruments => cases source
  | check _ | play _ | summarize _ _ _ =>
      simp only [Request.answer, failed]
      rfl

section

variable {score : Score} {tape : RandomTape} {renderings : List Rendering}
  (reads : libraries.ReadsArguments) (isPath : IsPath path)
  (rendered : renderDocument tape (Document.loadWith libraries.decompress disk path) =
    .ok (score, renderings))
  (figures : List.Forall₂ Channel.HasFigures score.channels renderings)

include reads isPath rendered figures

/-- What a check prints does not depend on the tape. -/
theorem run_check (input : List UInt8) :
    libraries.run .player (checkArguments path) input tape disk =
      (.success (String.join (score.channels.map Channel.checkLine)), disk) := by
  simp only [Libraries.run, reads.request_check isPath, Request.answer, Request.source?,
    Libraries.loadSource, rendered, Channel.map_checkLine figures]
  rfl

variable (valid : score.Valid) {compact : Bool} {text : String}
  (wrote : libraries.writeJson compact score.countedSummary.toJson = .ok text)

include valid wrote

/-- A summary does not depend on the tape. -/
theorem run_summary (input : List UInt8) :
    libraries.run .summarizer (summaryArguments compact path []) input tape disk =
      (.success (text ++ "\n"), disk) := by
  simp only [Libraries.run, reads.request_summary isPath, Request.answer, Request.source?,
    Libraries.loadSource, rendered, Score.withRenderings_ofScore valid figures, wrote]
  rfl

/-- What is stored is the text of the summary. -/
theorem run_destination {destination : List Char} (isDestination : IsPath destination)
    {written : Disk}
    (fits : disk.store? destination (text ++ "\n").toUTF8.toList = some written)
    (input : List UInt8) :
    libraries.run .summarizer (summaryArguments compact path (destinationArguments destination))
        input tape disk =
      ({ Answer.success "" with file := some (destination, text ++ "\n") }, written) := by
  simp only [Libraries.run, reads.request_destination isPath isDestination, Request.answer,
    Request.source?, Libraries.loadSource, rendered, Score.withRenderings_ofScore valid figures,
    wrote, Answer.delivered, fits]

end

/-! ## Lines and entries -/

/-- Whether a line of a check and an entry of a summary have the same figures. -/
def SameFigures (line : String) (entry : Json) : Prop :=
  ∃ index samples rate duration : Nat, ∃ fields,
    line = s!"channel {index}: {samples} samples at " ++ s!"{rate}Hz, {duration}ms\n" ∧
    entry = .record fields ∧ fields.lookup "index" = some (.whole index) ∧
    fields.lookup "samples" = some (.whole samples) ∧
    fields.lookup "sample_rate" = some (.whole rate) ∧
    fields.lookup "duration_ms" = some (.whole duration)

/-- The figures of an entry are found in what is read back of it. -/
theorem sameFigures_checkLine {channel : Channel} {entry : Json}
    (same : entry.withoutFractions = channel.countedEntry.toJson.withoutFractions) :
    SameFigures channel.checkLine entry := by
  obtain ⟨fields, rfl, alike⟩ := Json.exists_eq_record same
  exact ⟨channel.index, channel.sampleCount, channel.settings.rate, channel.duration, fields,
    rfl, rfl, Json.lookup_whole alike rfl, Json.lookup_whole alike rfl,
    Json.lookup_whole alike rfl, Json.lookup_whole alike rfl⟩

/-- What is read back of a summary has an entry for each channel. -/
theorem exists_entries {score : Score} {value : Json}
    (same : value.withoutFractions = score.countedSummary.toJson.withoutFractions) :
    ∃ fields entries, value = .record fields ∧
      fields.lookup "channels" = some (.list entries) ∧
      List.Forall₂ SameFigures (score.channels.map Channel.checkLine) entries := by
  obtain ⟨fields, rfl, alike⟩ := Json.exists_eq_record same
  obtain ⟨list, found, sameList⟩ := Json.exists_lookup alike
    (rfl : List.lookup "channels" _ = some (Json.list _))
  obtain ⟨entries, rfl, sameEntries⟩ := Json.exists_eq_list sameList
  refine ⟨fields, entries, rfl, found, ?_⟩
  rw [Score.countedSummary, List.map_map, List.map_map] at sameEntries
  rw [List.forall₂_map_left_iff]
  exact (forall₂_of_map_eq sameEntries).flip.imp fun _ _ => sameFigures_checkLine

end CommandLine

namespace Disk

/-- A file that can be stored takes its place among the files. -/
theorem eq_of_store? {disk written : Disk} {path : List Char} {content : List UInt8}
    (stored : disk.store? path content = some written) :
    written = disk.put path content := by
  rw [store?] at stored
  split at stored
  · exact (Option.some.inj stored).symm
  · split at stored
    · exact (Option.some.inj stored).symm
    · cases stored
  · cases stored

/-- A path is refused for what it is, before it is looked up, or it can be looked up on any
disk. -/
theorem store?_eq_none_or (path : List Char) :
    (∀ (disk : Disk) content, disk.store? path content = none) ∨
      ∀ (disk : Disk) content, disk.files.lookup path = some content →
        disk.lookUp path = .ok (.file content) := by
  by_cases nul : '\x00' ∈ path
  · exact .inl fun disk content => by simp only [store?, lookUp, if_pos nul]
  by_cases empty : path = []
  · subst empty
    exact .inl fun disk content => rfl
  by_cases long : longestPath < octetLength path
  · exact .inl fun disk content => by
      simp only [store?, lookUp, if_neg nul, if_neg empty, if_pos long]
  · exact .inr fun disk content found => by
      simp only [lookUp, if_neg nul, if_neg empty, if_neg long, found]

/-- A file that has been stored is found. -/
theorem lookUp_of_store? {disk written : Disk} {path : List Char} {content : List UInt8}
    (stored : disk.store? path content = some written) :
    written.lookUp path = .ok (.file content) := by
  rcases store?_eq_none_or path with refused | found
  · rw [refused] at stored
    cases stored
  · rw [eq_of_store? stored]
    exact found _ content List.lookup_cons_self

end Disk

namespace CommandLine

variable {libraries : Libraries} {readJson : String → Option Json} {path destination : List Char}

/-- The tools agree on every document.  A check and a summary come out well together; then a
check has one line for each channel, what is read back of the summary has one entry for each, and
each line has the figures of its entry.  What is stored at a destination is what is printed
without one.  If they fail, they do so with one exit code, without output, and nothing is stored;
the code is one unless reading breaks at a sum that does not fit. -/
theorem run_agrees (reads : libraries.ReadsArguments) (writes : libraries.WritesJson readJson)
    (isPath : IsPath path) (isDestination : IsPath destination) (compact : Bool) (disk : Disk)
    (checkInput printInput storeInput : List UInt8)
    (checkTape printTape storeTape : RandomTape) :
    let document := Document.loadWith libraries.decompress disk path
    let checked := libraries.run .player (checkArguments path) checkInput checkTape disk
    let printed :=
      libraries.run .summarizer (summaryArguments compact path []) printInput printTape disk
    let stored := libraries.run .summarizer
      (summaryArguments compact path (destinationArguments destination)) storeInput storeTape disk
    (checked.1.code = 0 ↔ printed.1.code = 0) ∧
    (printed.1.code = 0 →
      (∃ source score lines text fields entries, document = .ok source ∧
        Score.parse source = .ok score ∧ lines.length = score.channels.length ∧
        checked.1.output = String.join lines ∧
        printed.1.output = text ++ "\n" ∧ readJson text = some (.record fields) ∧
        fields.lookup "channels" = some (.list entries) ∧
        List.Forall₂ SameFigures lines entries) ∧
      ∀ written, disk.store? destination printed.1.output.toUTF8.toList = some written →
        stored.1.code = 0 ∧ stored.1.output = "" ∧ stored.2 = written ∧
          stored.2.lookUp destination = .ok (.file printed.1.output.toUTF8.toList)) ∧
    (printed.1.code ≠ 0 →
      checked.1.code = printed.1.code ∧ stored.1.code = printed.1.code ∧
        (printed.1.code = 1 ∨ Overflows document) ∧
        checked.1.output = "" ∧ printed.1.output = "" ∧ stored.1.output = "" ∧
        stored.1.file = none ∧ stored.2 = disk) := by
  intro document checked printed stored
  cases settled document with
  | fails failure code failed =>
      have checkedIs : checked = (failure.answer, disk) :=
        run_of_failed (reads.request_check isPath) rfl (failed _) _
      have printedIs : printed = (failure.answer, disk) :=
        run_of_failed (reads.request_summary isPath compact) rfl (failed _) _
      have storedIs : stored = (failure.answer, disk) :=
        run_of_failed (reads.request_destination isPath isDestination compact) rfl (failed _) _
      rw [checkedIs, printedIs, storedIs]
      exact ⟨Iff.rfl, fun succeeds => absurd succeeds failure.code_ne_zero,
        fun _ => ⟨rfl, rfl, code, rfl, rfl, rfl, rfl, rfl⟩⟩
  | succeeds source score loaded read rendered =>
      have valid := Score.valid_of_parse read
      obtain ⟨text, value, wrote, readBack, same⟩ :=
        writes compact score.countedSummary.plain_toJson
      obtain ⟨fields, entries, rfl, found, figures⟩ := exists_entries same
      have checkedIs : checked =
          (.success (String.join (score.channels.map Channel.checkLine)), disk) := by
        obtain ⟨renderings, done, counted⟩ := rendered checkTape
        exact run_check reads isPath done counted checkInput
      have printedIs : printed = (.success (text ++ "\n"), disk) := by
        obtain ⟨renderings, done, counted⟩ := rendered printTape
        exact run_summary reads isPath done counted valid wrote printInput
      rw [checkedIs, printedIs]
      refine ⟨Iff.rfl, fun _ => ⟨⟨source, score, score.channels.map Channel.checkLine, text,
        fields, entries, loaded, read, List.length_map _, rfl, rfl, readBack, found, figures⟩,
        fun written fits => ?_⟩, fun fails => absurd rfl fails⟩
      have storedIs : stored =
          ({ Answer.success "" with file := some (destination, text ++ "\n") }, written) := by
        obtain ⟨renderings, done, counted⟩ := rendered storeTape
        exact run_destination reads isPath done counted valid wrote isDestination fits storeInput
      rw [storedIs]
      exact ⟨rfl, rfl, rfl, Disk.lookUp_of_store? fits⟩

/-- A disk with a document of two channels that only rest. -/
def restsDisk : Disk :=
  Disk.empty.put "rests.nsmf".toList ((Text.joinLines
    [Document.header, "globalconfig tempo 100% endglobalconfig".toList,
     "config 100 0 default sinwave endconfig pause,5 endchannel".toList,
     "config 100 0 default drum endconfig endchannel".toList]).map (·.toNat.toUInt8))

/-- The summary of that document, on one line. -/
def restsSummary : Answer × Disk :=
  run .summarizer (summaryArguments true "rests.nsmf".toList []) [] (.fresh fun _ => 0) restsDisk

theorem run_agrees_rests :
    Libraries.builtIn.ReadsArguments ∧ Libraries.builtIn.WritesJson Json.read? ∧
      IsPath "rests.nsmf".toList ∧ IsPath "rests.json".toList ∧ restsSummary.1.code = 0 ∧
      (run .player (checkArguments "rests.nsmf".toList) [] (.fresh fun _ => 1)
        restsDisk).1.code = 0 ∧
      (∃ text fields entries, restsSummary.1.output = text ++ "\n" ∧
        Json.read? text = some (.record fields) ∧
        fields.lookup "channels" = some (.list entries) ∧ entries.length = 2) ∧
      (run .summarizer (summaryArguments true "rests.nsmf".toList
        (destinationArguments "rests.json".toList)) [] (.fresh fun _ => 2) restsDisk).2.lookUp
          "rests.json".toList = .ok (.file restsSummary.1.output.toUTF8.toList) := by
  have reads := Libraries.readsArguments_builtIn
  have writes := Libraries.writesJson_builtIn
  have isPath : IsPath "rests.nsmf".toList := by decide
  have isDestination : IsPath "rests.json".toList := by decide
  have good : restsSummary.1.code = 0 := by decide +kernel
  have counted : ((Document.load restsDisk "rests.nsmf".toList).toOption.bind fun source =>
      (Score.parse source).toOption.map (·.channels.length)) = some 2 := by decide +kernel
  have free (content : List UInt8) :
      (restsDisk.store? "rests.json".toList content).isSome = true := rfl
  rcases Option.isSome_iff_exists.1 (free restsSummary.1.output.toUTF8.toList) with ⟨written, fits⟩
  have agrees := run_agrees reads writes isPath isDestination true restsDisk [] [] []
    (.fresh fun _ => 1) (.fresh fun _ => 0) (.fresh fun _ => 2)
  rw [← run, ← restsSummary] at agrees
  obtain ⟨codes, succeeds, _⟩ := agrees
  obtain ⟨⟨source, score, lines, text, fields, entries, loaded, read, lined, _, output, readBack,
    found, figures⟩, stored⟩ := succeeds good
  have length : score.channels.length = 2 := by
    have loaded : Document.load restsDisk "rests.nsmf".toList = .ok source := loaded
    simpa only [loaded, read, Except.toOption, Option.bind_some, Option.map_some,
      Option.some.injEq] using counted
  exact ⟨reads, writes, isPath, isDestination, good, codes.2 good,
    ⟨text, fields, entries, output, readBack, found,
      figures.length_eq.symm.trans (lined.trans length)⟩,
    (stored written fits).2.2.2⟩

end CommandLine

end ScoreSynth
