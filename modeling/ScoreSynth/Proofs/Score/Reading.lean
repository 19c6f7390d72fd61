import ScoreSynth.Proofs.Channel
import ScoreSynth.Proofs.Score.Global
import ScoreSynth.Score

/-!
# Reading a score, pass by pass

A document is read exactly when each of the passes over it succeeds.  These facts
take a successful reading apart: there is a block for each channel, and the channel at
a position is the one that its block describes.
-/

namespace ScoreSynth.Score

open Stepwise

/-- The body of a document is never without blocks. -/
theorem ne_nil_of_splitBlocks {tokens : List Token} {blocks : List Block}
    (split : splitBlocks tokens = .ok blocks) : blocks ≠ [] := by
  rcases bind_eq_ok.1 split with ⟨found, _, final⟩
  split at final
  · cases final
  all_goals
    cases found with
    | nil => cases final
    | cons block others =>
        cases final
        exact List.cons_ne_nil _ _

/-- A block is built into a channel exactly when its settings can be read, its other
tokens are notes that these settings admit, and the sum of all durations fits. -/
theorem buildChannel_eq_ok {multiplier : Float} {index : Nat} {block : Block}
    {channel : Channel} :
    buildChannel multiplier index block = .ok channel ↔
      ∃ settings notes, Settings.ofWords (block.settings.map (·.text)) = .ok settings ∧
        block.notes.mapM (Note.ofToken multiplier) = .ok notes ∧
        (∀ note ∈ notes, settings.Admits note) ∧
        Channel.totalDuration notes < Numeral.bound64 ∧
        channel = ⟨index, settings, notes.toArray, Channel.totalDuration notes⟩ := by
  rw [buildChannel, bind_eq_ok]
  have fits (settings : Settings) :
      (Channel.empty index settings).duration < Numeral.bound64 :=
    (by decide : 0 < Numeral.bound64)
  constructor
  · intro built
    rcases built with ⟨settings, read, pushed⟩
    rcases (Channel.pushTokens_eq_ok (fits settings)).1 pushed with
      ⟨notes, readNotes, admitted, total, equal⟩
    refine ⟨settings, notes, read, readNotes, admitted, ?_, ?_⟩
    · simpa [Channel.empty] using total
    · simpa [Channel.extend, Channel.empty] using equal
  · intro built
    rcases built with ⟨settings, notes, read, readNotes, admitted, total, equal⟩
    refine ⟨settings, read, (Channel.pushTokens_eq_ok (fits settings)).2 ?_⟩
    refine ⟨notes, readNotes, admitted, ?_, ?_⟩
    · simpa [Channel.empty] using total
    · simpa [Channel.extend, Channel.empty] using equal

theorem buildChannels_cons (multiplier : Float) (block : Block) (others : List Block)
    (index : Nat) :
    buildChannels multiplier (block :: others) index = do
      let channel ← buildChannel multiplier index block
      let following ← buildChannels multiplier others (index + 1)
      return channel :: following := by
  simp only [buildChannels, List.zipIdx_cons, List.mapM_cons]

theorem buildChannels_eq_ok {multiplier : Float} {blocks : List Block} {index : Nat}
    {channels : List Channel} :
    buildChannels multiplier blocks index = .ok channels ↔
      List.Forall₂ (fun (block, position) channel =>
        buildChannel multiplier position block = .ok channel)
        (blocks.zipIdx index) channels :=
  mapM_eq_ok

/-- The channels cannot be built exactly when one of them cannot be, those before it
having been built. -/
theorem buildChannels_eq_error {multiplier : Float} {blocks : List Block} {index : Nat}
    {fault : Fault} :
    buildChannels multiplier blocks index = .error fault ↔
      ∃ earlier block later channels, blocks = earlier ++ block :: later ∧
        buildChannels multiplier earlier index = .ok channels ∧
        buildChannel multiplier (index + earlier.length) block = .error fault := by
  rw [buildChannels, mapM_eq_error]
  constructor
  · intro failed
    rcases failed with ⟨before, ⟨block, position⟩, after, channels, cut, built, failed⟩
    rcases List.zipIdx_eq_append_iff.1 cut with ⟨earlier, rest, rfl, rfl, remaining⟩
    rcases List.zipIdx_eq_cons_iff.1 remaining.symm with ⟨_, later, rfl, same, _⟩
    cases same
    exact ⟨earlier, block, later, channels, rfl, built, failed⟩
  · intro failed
    rcases failed with ⟨earlier, block, later, channels, rfl, built, failed⟩
    refine ⟨earlier.zipIdx index, (block, index + earlier.length),
      later.zipIdx (index + earlier.length + 1), channels, ?_, built, failed⟩
    rw [List.zipIdx_append, List.zipIdx_cons]

/-- A body is compiled exactly when each pass over it succeeds. -/
theorem compile_eq_ok {multiplier : Float} {tokens : List Token}
    {channels : List Channel} :
    compile multiplier tokens = .ok channels ↔
      ∃ expanded blocks, expandLoops tokens = .ok expanded ∧
        splitBlocks expanded = .ok blocks ∧
        buildChannels multiplier blocks 0 = .ok channels := by
  simp only [compile, bind_eq_ok]
  constructor
  · intro compiled
    rcases compiled with ⟨expanded, expand, blocks, split, build⟩
    exact ⟨expanded, blocks, expand, split, build⟩
  · intro compiled
    rcases compiled with ⟨expanded, blocks, expand, split, build⟩
    exact ⟨expanded, expand, blocks, split, build⟩

/-- A document is read exactly when each pass over it succeeds. -/
theorem parse_eq_ok {source : List Char} {score : Score} :
    parse source = .ok score ↔
      ∃ tokens body, Token.scan source = .ok tokens ∧
        takeGlobals tokens = .ok (score.tempo, body) ∧
        compile score.tempo.multiplier body = .ok score.channels := by
  simp only [parse, bind_eq_ok]
  constructor
  · intro read
    rcases read with ⟨tokens, scanned, ⟨tempo, body⟩, taken, channels, compiled, final⟩
    cases final
    exact ⟨tokens, body, scanned, taken, compiled⟩
  · intro read
    rcases read with ⟨tokens, body, scanned, taken, compiled⟩
    exact ⟨tokens, scanned, (score.tempo, body), taken, score.channels, compiled, rfl⟩

end ScoreSynth.Score
