import ScoreSynth.Proofs.Score.Blocks
import ScoreSynth.Proofs.Score.Loops
import ScoreSynth.Proofs.Score.Validity

/-!
# Bodies one behind the other

Each pass over a body walks over the whole of it, and yet what a body is compiled to does
not depend on what stands before it.  Behind a body that a pass has taken in, the pass does
with a second body what it does with it alone.  There are two exceptions.  The channels of
the second body are numbered on, and a second body of which nothing is left when its loops
are expanded adds no channels, where alone it would be refused for having none
(`Score.compile_append`).
-/

namespace ScoreSynth

open Stepwise

/-! ## Loops and blocks -/

namespace Score

/-- Behind a body whose loops can be expanded, those of a second one are expanded as they
are in the second one alone. -/
theorem expandLoops_append_of_ok {first expanded : List Token}
    (expand : expandLoops first = .ok expanded) (second : List Token) :
    expandLoops (first ++ second) = do
      let following ← expandLoops second
      return expanded ++ following := by
  obtain ⟨pieces, wellFormed, rfl, rfl⟩ := expandLoops_eq_ok.1 expand
  exact expandLoops_flatMap_append wellFormed second

/-- Behind a body that ends with a block, a second one is cut as it is alone. -/
theorem splitBlocks_append {first second : List Token} {blocks : List Block}
    (split : splitBlocks first = .ok blocks) (more : second ≠ []) :
    splitBlocks (first ++ second) = do
      let following ← splitBlocks second
      return blocks ++ following := by
  obtain ⟨ended, nonempty, wellFormed, rfl, related⟩ := splitBlocks_eq_ok.1 split
  obtain ⟨later, trailing, laterAre, unended, rfl⟩ := exists_ended second
  have read : (ended.map (·.tokens)).mapM Block.ofTokens = .ok blocks :=
    mapM_eq_ok.2 (List.forall₂_map_left_iff.2 related)
  have wholeAre := List.forall_mem_append.2 ⟨wellFormed, laterAre⟩
  rw [← List.append_assoc, ← List.flatMap_append]
  -- Words behind the last ending are refused before a block is read, those of the first
  -- body included.
  cases trailing with
  | nil =>
      have laterMore : later ≠ [] := by
        rintro rfl
        exact more rfl
      rw [List.append_nil, List.append_nil, splitBlocks_written laterMore laterAre,
        splitBlocks_written (List.append_ne_nil_of_right_ne_nil ended laterMore) wholeAre,
        List.map_append, List.mapM_append, read]
      rfl
  | cons token others =>
      rw [splitBlocks_written_append wholeAre unended,
        splitBlocks_written_append laterAre unended, List.map_append, List.mapM_append, read]
      simp only [ok_bind, bind_assoc, pure_bind]
      rfl

end Score

/-! ## Channels -/

namespace Channel

/-- The channel as it is when more channels stand before it in the document. -/
def moved (distance : Nat) (channel : Channel) : Channel :=
  { channel with index := channel.index + distance }

/-- No note depends on where its channel stands. -/
theorem push_moved (distance : Nat) (channel : Channel) (note : Note) :
    (channel.moved distance).push note = do
      let next ← channel.push note
      return next.moved distance := by
  cases pushed : channel.push note with
  | error fault =>
      have refused := push_eq_error.1 pushed
      exact push_eq_error.2 refused
  | ok next =>
      obtain ⟨admitted, fits, rfl⟩ := push_eq_ok.1 pushed
      exact push_eq_ok.2 ⟨admitted, fits, rfl⟩

theorem pushTokens_moved (multiplier : Float) (distance : Nat) (channel : Channel)
    (tokens : List Token) :
    (channel.moved distance).pushTokens multiplier tokens = do
      let final ← channel.pushTokens multiplier tokens
      return final.moved distance := by
  simp only [pushTokens_eq_foldlM]
  induction tokens generalizing channel with
  | nil => rfl
  | cons token others ih =>
      simp only [List.foldlM_cons, pushToken, bind_assoc]
      cases Note.ofToken multiplier token with
      | error fault => rfl
      | ok note =>
          simp only [ok_bind, push_moved, bind_assoc]
          cases channel.push note with
          | error fault => rfl
          | ok next => exact ih next

end Channel

namespace Score

/-- Where a channel stands decides on nothing but its index. -/
theorem buildChannel_add (multiplier : Float) (index distance : Nat) (block : Block) :
    buildChannel multiplier (index + distance) block = do
      let channel ← buildChannel multiplier index block
      return channel.moved distance := by
  simp only [buildChannel, bind_assoc]
  cases Settings.ofWords (block.settings.map (·.text)) with
  | error fault => rfl
  | ok settings =>
      exact Channel.pushTokens_moved multiplier distance (.empty index settings) block.notes

theorem buildChannels_add (multiplier : Float) (blocks : List Block) (index distance : Nat) :
    buildChannels multiplier blocks (index + distance) = do
      let channels ← buildChannels multiplier blocks index
      return channels.map (·.moved distance) := by
  induction blocks generalizing index with
  | nil => rfl
  | cons block others ih =>
      have further := ih (index + 1)
      rw [Nat.add_right_comm] at further
      simp only [buildChannels_cons, buildChannel_add, further, bind_assoc, pure_bind]
      rfl

theorem buildChannels_append (multiplier : Float) (first second : List Block) (index : Nat) :
    buildChannels multiplier (first ++ second) index = do
      let channels ← buildChannels multiplier first index
      let following ← buildChannels multiplier second (index + first.length)
      return channels ++ following := by
  simp only [buildChannels, List.zipIdx_append, List.mapM_append]

/-! ## Whole bodies -/

/-- Behind a body that can be compiled, a second one that is not empty when its loops are
expanded is compiled as it is alone. -/
theorem compile_append_of_ne {multiplier : Float} {first second : List Token}
    {channels : List Channel} (compiled : compile multiplier first = .ok channels)
    (more : expandLoops second ≠ .ok []) :
    compile multiplier (first ++ second) = do
      let following ← compile multiplier second
      return channels ++ following.map (·.moved channels.length) := by
  obtain ⟨expanded, blocks, expand, split, built⟩ := compile_eq_ok.1 compiled
  have length := length_of_buildChannels built
  simp only [compile, expandLoops_append_of_ok expand, bind_assoc, pure_bind]
  cases expandSecond : expandLoops second with
  | error fault => rfl
  | ok later =>
      rw [expandSecond] at more
      have laterMore : later ≠ [] := by
        rintro rfl
        exact more rfl
      have shifted (rest : List Block) := buildChannels_add multiplier rest 0 blocks.length
      simp only [ok_bind, splitBlocks_append split laterMore, bind_assoc, pure_bind,
        buildChannels_append, built, length, shifted]

/-- A body stands behind one that can be compiled.  If it can be compiled too, its channels
follow those of the first one, with only their indices raised by the number of these.  If
nothing is left of it when its loops are expanded, there are the channels of the first one.
If it is refused for any other reason, so are both together, and with the same fault. -/
theorem compile_append {multiplier : Float} {first second : List Token}
    {channels : List Channel} (compiled : compile multiplier first = .ok channels) :
    (∀ following, compile multiplier second = .ok following →
      compile multiplier (first ++ second) =
        .ok (channels ++ following.map (·.moved channels.length))) ∧
    (expandLoops second = .ok [] → compile multiplier (first ++ second) = .ok channels) ∧
    (∀ fault, compile multiplier second = .error fault → expandLoops second ≠ .ok [] →
      compile multiplier (first ++ second) = .error fault) := by
  have nothing : expandLoops second = .ok [] → ∀ following,
      compile multiplier second ≠ .ok following := by
    intro empty following done
    obtain ⟨later, blocks, expand, split, _⟩ := compile_eq_ok.1 done
    rw [empty] at expand
    cases expand
    cases split
  refine ⟨?_, ?_, ?_⟩
  · intro following done
    have more : expandLoops second ≠ .ok [] := fun empty => nothing empty following done
    rw [compile_append_of_ne compiled more, done]
    rfl
  · intro empty
    obtain ⟨expanded, blocks, expand, split, built⟩ := compile_eq_ok.1 compiled
    refine compile_eq_ok.2 ⟨expanded, blocks, ?_, split, built⟩
    rw [expandLoops_append_of_ok expand, empty, ok_bind, List.append_nil]
    rfl
  · intro fault failed more
    rw [compile_append_of_ne compiled more, failed]
    rfl

/-- The tokens of a voice that stands on one line. -/
def voiceOnLine (line : Nat) (notes : List Char) : List Token :=
  Token.ofLine line 0
    ("channel config 100 0 default sinwave endconfig ".toList ++ notes ++ " endchannel".toList)

/-- The channel of such a voice, the first one of its body. -/
def channelOnLine (line : Nat) (pitches : List Pitch) : Channel :=
  ⟨0, ⟨Settings.volumeOfPercent 100, 0, SampleRate.standard, .sinwave⟩,
    (pitches.map (⟨·, 100, line⟩)).toArray, 100 * pitches.length⟩

/-- A voice is followed by a second voice, by an empty loop, and by a voice that names a
pitch that there is not. -/
theorem compile_append_voiceOnLine :
    compile 1 (voiceOnLine 3 "A4,100".toList) = .ok [channelOnLine 3 [49]] ∧
      compile 1 (voiceOnLine 4 "loop 2 B4,100 endloop".toList) =
        .ok [channelOnLine 4 [51, 51]] ∧
      compile 1 (voiceOnLine 3 "A4,100".toList ++
        voiceOnLine 4 "loop 2 B4,100 endloop".toList) =
          .ok [channelOnLine 3 [49], (channelOnLine 4 [51, 51]).moved 1] ∧
      compile 1 (voiceOnLine 3 "A4,100".toList ++
        Token.ofLine 4 0 "loop 2 endloop".toList) = .ok [channelOnLine 3 [49]] ∧
      compile 1 (voiceOnLine 3 "A4,100".toList ++ voiceOnLine 4 "H4,50".toList) =
        .error (.unknownPitch 4 "H4".toList) := by
  have first : compile 1 (voiceOnLine 3 "A4,100".toList) = .ok [channelOnLine 3 [49]] := by
    decide +kernel
  have second : compile 1 (voiceOnLine 4 "loop 2 B4,100 endloop".toList) =
      .ok [channelOnLine 4 [51, 51]] := by
    decide +kernel
  have empty : expandLoops (Token.ofLine 4 0 "loop 2 endloop".toList) = .ok [] := by
    decide +kernel
  have failed : compile 1 (voiceOnLine 4 "H4,50".toList) =
      .error (.unknownPitch 4 "H4".toList) := by
    decide +kernel
  have more : expandLoops (voiceOnLine 4 "H4,50".toList) ≠ .ok [] := by decide +kernel
  refine ⟨first, second, ?_, ?_, ?_⟩
  · exact (compile_append first).1 _ second
  · exact (compile_append first).2.1 empty
  · exact (compile_append first).2.2 _ failed more

end Score

end ScoreSynth
