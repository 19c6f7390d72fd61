import ScoreSynth.Proofs.Draft.Pieces
import ScoreSynth.Proofs.Score.Reading

/-!
# Reading what a draft writes

The document of a playable draft is read as the score that the draft stands for.  The
passes over the document are followed one by one: scanning gives the tokens of the
draft's pieces, the global settings are its tempo, loops are expanded to blocks, and
each block is built into the channel at its position.
-/

namespace ScoreSynth

open Score Stepwise Token

namespace DraftChannel

variable {multiplier : Float} {channel : DraftChannel}

theorem isLine_of_mem_lines (playable : channel.Playable multiplier) {line : List Char}
    (member : line ∈ channel.lines) : Text.IsLine line := by
  simp only [lines, List.mem_cons, List.not_mem_nil, or_false] at member
  rcases member with rfl | rfl | rfl
  · exact Text.isLine_joinWords fun _ => isWord_of_mem_openingWords
  · exact Text.isLine_joinWords fun _ => isWord_of_mem_itemWords playable
  · decide

/-- The lines of a channel are scanned as its pieces. -/
theorem ofLines_lines (playable : channel.Playable multiplier) (index : Nat)
    (others : List (List Char)) :
    ofLines (3 * index + 3) 0 (channel.lines ++ others) =
      (channel.pieces index).flatMap Piece.tokens ++
        ofLines (3 * (index + 1) + 3) 0 others := by
  have opening : ∀ word ∈ channel.openingWords, Text.IsWord word :=
    fun _ => isWord_of_mem_openingWords
  have items : ∀ word ∈ channel.itemWords, Text.IsWord word :=
    fun _ => isWord_of_mem_itemWords playable
  have closing : ∀ word ∈ [Keyword.endchannel.text], Text.IsWord word := by
    intro word member
    rw [List.mem_singleton.1 member]
    exact Keyword.isWord_text .endchannel
  have split : channel.lines ++ others = Text.joinWords channel.openingWords ::
      Text.joinWords channel.itemWords ::
        Text.joinWords [Keyword.endchannel.text] :: others := by
    rw [Text.joinWords_singleton]
    rfl
  have announced : channel.openingWords ≠ [] := List.cons_ne_nil _ _
  rw [split, flatMap_tokens_pieces, ofLines_joinWords_cons announced opening, ofWords_zero]
  -- Without items the second line is empty, and the closing word counts it as a gap.
  by_cases silent : channel.itemWords = []
  · rw [silent, Text.joinWords_nil, ofLines_nil_cons,
      ofLines_joinWords_cons (List.cons_ne_nil _ _) closing]
    simp [ending, openingTokens, silent, ofWords, Nat.mul_add]
  · rw [ofLines_joinWords_cons silent items, ofWords_zero,
      ofLines_joinWords_cons (List.cons_ne_nil _ _) closing]
    simp [ending, openingTokens, silent, ofWords, Nat.mul_add, Draft.noteLine]

theorem totalDuration_played (multiplier : Float) (line : Nat) (channel : DraftChannel) :
    Channel.totalDuration (channel.played multiplier line) = channel.duration multiplier := by
  have sum (notes : List DraftNote) (total : Nat) :
      notes.foldl (fun total note => total + Note.scaled multiplier note.duration) total =
        total + Channel.totalDuration (notes.map (·.played multiplier line)) := by
    induction notes generalizing total with
    | nil => rfl
    | cons note others ih =>
        rw [List.foldl_cons, ih, List.map_cons, Channel.totalDuration_cons, Nat.add_assoc]
        rfl
  rw [duration, sum, Nat.zero_add]
  rfl

theorem buildChannel_block (playable : channel.Playable multiplier) (index : Nat) :
    buildChannel multiplier index (channel.block index) =
      .ok (Draft.channel multiplier index channel) := by
  rw [buildChannel_eq_ok]
  refine ⟨channel.settings, channel.played multiplier (Draft.noteLine index), ?_, ?_, ?_, ?_,
    ?_⟩
  · have texts : (channel.block index).settings.map (·.text) = channel.settingsWords := by
      simp [block, onLine, Function.comp_def]
    rw [texts]
    exact ofWords_settingsWords playable
  · rw [mapM_eq_ok, block, noteTokens, played, List.forall₂_map_left_iff,
      List.forall₂_map_right_iff]
    apply List.forall₂_same.2
    intro note member
    exact DraftNote.ofToken_word (playable_of_mem_unrolled playable member) multiplier _ 0
  · intro note member
    rcases List.mem_map.1 member with ⟨single, among, rfl⟩
    exact DraftNote.admits_played multiplier _ (playable_of_mem_unrolled playable among)
  · rw [totalDuration_played]
    exact playable.duration_lt
  · rw [totalDuration_played]
    rfl

end DraftChannel

namespace Draft

variable {multiplier : Float} {channels : List DraftChannel}

theorem ofLines_flatMap_lines (playable : ∀ channel ∈ channels, channel.Playable multiplier)
    (index : Nat) :
    ofLines (3 * index + 3) 0 (channels.flatMap DraftChannel.lines) =
      ((channels.zipIdx index).flatMap fun (channel, position) =>
        channel.pieces position).flatMap Piece.tokens := by
  induction channels generalizing index with
  | nil => rfl
  | cons channel others ih =>
      rcases List.forall_mem_cons.1 playable with ⟨channelPlayable, othersPlayable⟩
      rw [List.flatMap_cons, List.zipIdx_cons, List.flatMap_cons, List.flatMap_append]
      rw [DraftChannel.ofLines_lines channelPlayable, ih othersPlayable (index + 1)]

theorem buildChannels_blocks (playable : ∀ channel ∈ channels, channel.Playable multiplier)
    (index : Nat) :
    buildChannels multiplier
        ((channels.zipIdx index).map fun (channel, position) => channel.block position) index =
      .ok ((channels.zipIdx index).map fun (draft, position) =>
        channel multiplier position draft) := by
  induction channels generalizing index with
  | nil => rfl
  | cons first others ih =>
      rcases List.forall_mem_cons.1 playable with ⟨firstPlayable, othersPlayable⟩
      rw [List.zipIdx_cons, List.map_cons, buildChannels_cons]
      rw [DraftChannel.buildChannel_block firstPlayable, ok_bind, ih othersPlayable (index + 1)]
      rfl

/-! ## Whole documents -/

variable {draft : Draft}

/-- The channels of a draft with their positions. -/
def placed (draft : Draft) : List (DraftChannel × Nat) :=
  draft.channels.zipIdx

/-- The pieces that the channels of a draft are written as. -/
def pieces (draft : Draft) : List Piece :=
  draft.placed.flatMap fun (channel, index) => channel.pieces index

/-- The blocks that these pieces stand for. -/
def ended (draft : Draft) : List EndedBlock :=
  draft.placed.map fun (channel, index) => channel.ended index

theorem playable_of_mem_placed (playable : draft.Playable) {channel : DraftChannel}
    {index : Nat} (member : (channel, index) ∈ draft.placed) :
    channel.Playable draft.tempo.multiplier :=
  playable.channels_playable channel (List.fst_mem_of_mem_zipIdx member)

theorem isWord_of_mem_globalWords {word : List Char} (member : word ∈ draft.globalWords) :
    Text.IsWord word := by
  simp only [globalWords, List.mem_cons, List.not_mem_nil, or_false] at member
  rcases member with rfl | rfl | rfl | rfl
  · exact Keyword.isWord_text .globalconfig
  · exact Keyword.isWord_text .tempo
  · exact Tempo.isWord_ofNat draft.tempo
  · exact Keyword.isWord_text .endglobalconfig

/-- The document of a draft is scanned as the words for its tempo and its pieces. -/
theorem scan_write (playable : draft.Playable) :
    Token.scan draft.write =
      .ok (draft.globalWords.map (onLine 2) ++ draft.pieces.flatMap Piece.tokens) := by
  have good : ∀ word ∈ draft.globalWords, Text.IsWord word :=
    fun _ => isWord_of_mem_globalWords
  have plain : ∀ line ∈ Text.joinWords draft.globalWords ::
      draft.channels.flatMap DraftChannel.lines, Text.IsLine line := by
    intro line member
    cases member with
    | head => exact Text.isLine_joinWords good
    | tail _ later =>
        rcases List.mem_flatMap.1 later with ⟨channel, among, inLines⟩
        exact DraftChannel.isLine_of_mem_lines (playable.channels_playable channel among) inLines
  have opens : Document.opensGlobal (Text.joinWords draft.globalWords) = true := by
    rcases Text.exists_joinWords_cons Keyword.globalconfig.text draft.globalWords.tail with
      ⟨rest, equal⟩
    rw [Document.opensGlobal, List.isPrefixOf_iff_prefix]
    exact ⟨rest, equal.symm⟩
  have announced : draft.globalWords ≠ [] := List.cons_ne_nil _ _
  rw [write, scan_joinLines plain opens, ofLines_joinWords_cons announced good, ofWords_zero]
  rw [show 2 + 1 = 3 * 0 + 3 from rfl, ofLines_flatMap_lines playable.channels_playable 0]
  rfl

/-- The words for the tempo are taken from the front of the tokens. -/
theorem takeGlobals_write (playable : draft.Playable) (body : List Token) :
    takeGlobals (draft.globalWords.map (onLine 2) ++ body) = .ok (draft.tempo, body) := by
  have value : tempoOfToken (onLine 2 (Numeral.ofNat draft.tempo.percent ++ ['%'])) =
      .ok draft.tempo :=
    tempoOfToken_ofNat playable.tempo_mem.1 playable.tempo_mem.2 2 0
  have named : (onLine 2 Keyword.tempo.text).is .tempo = true := rfl
  have read : readGlobals none [onLine 2 Keyword.tempo.text,
      onLine 2 (Numeral.ofNat draft.tempo.percent ++ ['%'])] = .ok (some draft.tempo) := by
    simp only [readGlobals, named, value, Bool.not_true, Bool.false_eq_true, if_false, ok_bind]
  apply takeGlobals_append rfl ?_ rfl read body
  intro token member
  simp only [List.mem_cons, List.not_mem_nil, or_false] at member
  rcases member with rfl | rfl
  · rfl
  · rcases Numeral.exists_mem_ofNat draft.tempo.percent with ⟨digit, among, early⟩
    exact is_eq_false_of_mem (List.mem_append_left _ among) early .endglobalconfig

/-- The pieces of a draft are expanded to its blocks. -/
theorem expandLoops_pieces (playable : draft.Playable) :
    expandLoops (draft.pieces.flatMap Piece.tokens) =
      .ok (draft.ended.flatMap EndedBlock.written) := by
  have wellFormed : ∀ piece ∈ draft.pieces, piece.WellFormed := by
    intro piece member
    rcases List.mem_flatMap.1 member with ⟨⟨channel, index⟩, among, inChannel⟩
    exact DraftChannel.wellFormed_of_mem_pieces (playable_of_mem_placed playable among)
      inChannel
  have expanded : draft.pieces.flatMap Piece.expanded =
      draft.ended.flatMap EndedBlock.written := by
    rw [pieces, List.flatMap_assoc, ended, List.flatMap_map]
    apply List.flatMap_congr
    intro ⟨channel, index⟩ among
    exact DraftChannel.flatMap_expanded_pieces (playable_of_mem_placed playable among) index
  rw [expandLoops_flatMap wellFormed, expanded]

theorem splitBlocks_ended (playable : draft.Playable) :
    splitBlocks (draft.ended.flatMap EndedBlock.written) =
      .ok (draft.placed.map fun (channel, index) => channel.block index) := by
  have nonempty : draft.ended ≠ [] := by
    simpa [ended, placed] using playable.channels_ne_nil
  have wellFormed : ∀ block ∈ draft.ended, block.WellFormed := by
    intro block member
    rcases List.mem_map.1 member with ⟨⟨channel, index⟩, _, rfl⟩
    exact DraftChannel.wellFormed_ended channel index
  rw [splitBlocks_written nonempty wellFormed, mapM_eq_ok, ended, List.map_map,
    List.forall₂_map_left_iff, List.forall₂_map_right_iff]
  apply List.forall₂_same.2
  intro ⟨channel, index⟩ _
  exact DraftChannel.ofTokens_ended channel index

/-- A playable draft is read back: its document is read as the score it stands for. -/
theorem parse_write {draft : Draft} (playable : draft.Playable) :
    Score.parse draft.write = .ok draft.score := by
  have built := buildChannels_blocks playable.channels_playable 0
  have channels : draft.score.channels =
      draft.placed.map fun (written, position) =>
        channel draft.tempo.multiplier position written := by
    rw [score, List.mapIdx_eq_zipIdx_map]
    rfl
  apply parse_eq_ok.2
  refine ⟨_, _, scan_write playable, takeGlobals_write playable _, ?_⟩
  apply compile_eq_ok.2
  refine ⟨_, _, expandLoops_pieces playable, splitBlocks_ended playable, ?_⟩
  rw [channels]
  exact built

/-- A draft with a transposed voice that repeats itself, a silent one, and drums. -/
def etude : Draft :=
  ⟨⟨120⟩,
    [⟨80, -12, 16384, .oboe, [.note ⟨49, 500⟩, .loop 3 [⟨0, 250⟩, ⟨52, 125⟩]]⟩,
     ⟨-5, 7, 8000, .sqwave, []⟩,
     ⟨100, 0, 44100, .drum, [.loop 2 [], .note ⟨100, 60⟩]⟩]⟩

theorem parse_write_etude : etude.Playable ∧ Score.parse etude.write = .ok etude.score := by
  have playable : etude.Playable := by decide +kernel
  exact ⟨playable, parse_write playable⟩

end Draft

end ScoreSynth
