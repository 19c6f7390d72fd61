import ScoreSynth.Proofs.Draft.Words
import ScoreSynth.Proofs.Score.Blocks
import ScoreSynth.Proofs.Score.Loops

/-!
# The tokens of a draft

An item of a draft is written as one piece of a body, and a channel as one block.  The
three lines of a channel are scanned as the tokens of these pieces, and the pieces are
expanded to the block: the words that announce it, the settings, and the notes of its
items as often as they are played.
-/

namespace ScoreSynth

open Score Token

/-- The token that a note is written as. -/
def DraftNote.token (line : Nat) (note : DraftNote) : Token :=
  onLine line note.word

namespace Score

/-- A word that is not reserved is no mark of a loop. -/
theorem isLoopMark_eq_false {token : Token}
    (free : ∀ keyword, token.is keyword = false) : isLoopMark token = false := by
  rw [isLoopMark, free .loop, free .endloop]
  rfl

end Score

/-! ## Items -/

namespace DraftItem

variable {instrument : Instrument} {transposition : Int} {item : DraftItem}

/-- The piece that an item is written as. -/
def piece (line : Nat) : DraftItem → Piece
  | note single => .word (single.token line)
  | loop count notes =>
      .loop (onLine line Keyword.loop.text) (onLine line (Numeral.ofNat count))
        (notes.map (DraftNote.token line)) (onLine line Keyword.endloop.text)

theorem isWord_of_mem_words
    (playable : ∀ note ∈ item.notes, note.Playable instrument transposition)
    {word : List Char} (member : word ∈ item.words) : Text.IsWord word := by
  cases item with
  | note single =>
      rw [List.mem_singleton.1 member]
      exact DraftNote.isWord_word (playable single List.mem_cons_self)
  | loop count notes =>
      simp only [words, List.cons_append, List.mem_cons, List.mem_append, List.mem_map,
        List.not_mem_nil, or_false] at member
      rcases member with rfl | rfl | ⟨note, among, rfl⟩ | rfl
      · exact Keyword.isWord_text .loop
      · exact Numeral.isWord_ofNat count
      · exact DraftNote.isWord_word (playable note among)
      · exact Keyword.isWord_text .endloop

theorem tokens_piece (line : Nat) (item : DraftItem) :
    (item.piece line).tokens = item.words.map (onLine line) := by
  cases item with
  | note single => rfl
  | loop count notes => simp [piece, Piece.tokens, words, DraftNote.token]

theorem wellFormed_piece (line : Nat) (countable : item.Countable) :
    (item.piece line).WellFormed := by
  cases item with
  | note single => exact isLoopMark_eq_false (DraftNote.is_eq_false_of_word rfl)
  | loop count notes =>
      refine ⟨rfl, rfl, ?_, count, Numeral.natural?_ofNat countable.2, countable.1⟩
      intro token member
      apply isLoopMark_eq_false
      intro keyword
      cases member with
      | head =>
          rcases Numeral.exists_mem_ofNat count with ⟨digit, among, early⟩
          exact is_eq_false_of_mem among early keyword
      | tail _ inBody =>
          rcases List.mem_map.1 inBody with ⟨note, _, rfl⟩
          exact DraftNote.is_eq_false_of_word rfl keyword

/-- The piece of an item stands for the notes that the item stands for. -/
theorem expanded_piece (line : Nat) (countable : item.Countable) :
    (item.piece line).expanded = item.unrolled.map (DraftNote.token line) := by
  cases item with
  | note single => rfl
  | loop count notes =>
      have read : Piece.number? (onLine line (Numeral.ofNat count)) = some count :=
        Numeral.natural?_ofNat countable.2
      simp only [piece, Piece.expanded, read, Option.getD_some, unrolled, copies_eq,
        List.map_flatten, List.map_replicate]

theorem mem_notes_of_mem_unrolled {note : DraftNote} (member : note ∈ item.unrolled) :
    note ∈ item.notes := by
  cases item with
  | note single => exact member
  | loop count notes =>
      rw [unrolled, copies_eq] at member
      rcases List.mem_flatten.1 member with ⟨copy, among, inCopy⟩
      rw [(List.mem_replicate.1 among).2] at inCopy
      exact inCopy

end DraftItem

/-! ## Channels -/

namespace DraftChannel

variable {multiplier : Float} {channel : DraftChannel}

/-- The words on the first line of a channel. -/
def openingWords (channel : DraftChannel) : List (List Char) :=
  Keyword.channel.text :: Keyword.config.text ::
    (channel.settingsWords ++ [Keyword.endconfig.text])

/-- The words on the second line of a channel. -/
def itemWords (channel : DraftChannel) : List (List Char) :=
  channel.items.flatMap DraftItem.words

/-- The notes of a channel in the order in which they are played. -/
def unrolled (channel : DraftChannel) : List DraftNote :=
  channel.items.flatMap DraftItem.unrolled

/-- The word that ends a channel.  A channel without notes leaves a gap above it. -/
def ending (channel : DraftChannel) (index : Nat) : Token :=
  ⟨Keyword.endchannel.text, 3 * index + 5, if channel.itemWords = [] then 1 else 0⟩

/-- The tokens on the first line of a channel. -/
def openingTokens (channel : DraftChannel) (index : Nat) : List Token :=
  channel.openingWords.map (onLine (3 * index + 3))

/-- The tokens for the notes of a channel as they are played. -/
def noteTokens (channel : DraftChannel) (index : Nat) : List Token :=
  channel.unrolled.map (DraftNote.token (Draft.noteLine index))

/-- The pieces that a channel is written as. -/
def pieces (channel : DraftChannel) (index : Nat) : List Piece :=
  (channel.openingTokens index).map .word ++
    channel.items.map (DraftItem.piece (Draft.noteLine index)) ++
    [.word (channel.ending index)]

/-- The block that the pieces of a channel stand for. -/
def ended (channel : DraftChannel) (index : Nat) : EndedBlock :=
  ⟨channel.openingTokens index ++ channel.noteTokens index, channel.ending index⟩

/-- The settings and notes of that block. -/
def block (channel : DraftChannel) (index : Nat) : Block :=
  ⟨channel.settingsWords.map (onLine (3 * index + 3)), channel.noteTokens index⟩

theorem isWord_of_mem_openingWords {word : List Char}
    (member : word ∈ channel.openingWords) : Text.IsWord word := by
  simp only [openingWords, List.mem_cons, List.mem_append, List.not_mem_nil,
    or_false] at member
  rcases member with rfl | rfl | inSettings | rfl
  · exact Keyword.isWord_text .channel
  · exact Keyword.isWord_text .config
  · exact (isWord_of_mem_settingsWords inSettings).1
  · exact Keyword.isWord_text .endconfig

theorem isWord_of_mem_itemWords (playable : channel.Playable multiplier)
    {word : List Char} (member : word ∈ channel.itemWords) : Text.IsWord word := by
  rcases List.mem_flatMap.1 member with ⟨item, among, inItem⟩
  exact DraftItem.isWord_of_mem_words (playable.notes_playable item among) inItem

theorem playable_of_mem_unrolled (playable : channel.Playable multiplier)
    {note : DraftNote} (member : note ∈ channel.unrolled) :
    note.Playable channel.instrument channel.transposition := by
  rcases List.mem_flatMap.1 member with ⟨item, among, inItem⟩
  exact playable.notes_playable item among note (DraftItem.mem_notes_of_mem_unrolled inItem)

theorem is_eq_false_of_mem_settingsWords {word : List Char}
    (member : word ∈ channel.settingsWords) (line : Nat) (keyword : Keyword) :
    (onLine line word).is keyword = false :=
  is_eq_false_of_mem (isWord_of_mem_settingsWords member).2 (by decide) keyword

/-- The words before the notes end no channel and are no marks of loops. -/
theorem is_eq_false_of_mem_openingTokens {index : Nat} {token : Token}
    (member : token ∈ channel.openingTokens index) :
    token.is .endchannel = false ∧ isLoopMark token = false := by
  rcases List.mem_map.1 member with ⟨word, among, rfl⟩
  simp only [openingWords, List.mem_cons, List.mem_append, List.not_mem_nil,
    or_false] at among
  rcases among with rfl | rfl | inSettings | rfl
  · exact ⟨rfl, rfl⟩
  · exact ⟨rfl, rfl⟩
  · have free := is_eq_false_of_mem_settingsWords inSettings (3 * index + 3)
    exact ⟨free .endchannel, isLoopMark_eq_false free⟩
  · exact ⟨rfl, rfl⟩

/-- The pieces of a channel are its words, line by line, and the word that ends it. -/
theorem flatMap_tokens_pieces (channel : DraftChannel) (index : Nat) :
    (channel.pieces index).flatMap Piece.tokens =
      channel.openingTokens index ++
        channel.itemWords.map (onLine (Draft.noteLine index)) ++ [channel.ending index] := by
  have opening : ((channel.openingTokens index).map Piece.word).flatMap Piece.tokens =
      channel.openingTokens index := by
    rw [List.flatMap_map]
    exact List.flatMap_singleton' _
  have items : (channel.items.map (DraftItem.piece (Draft.noteLine index))).flatMap
      Piece.tokens = channel.itemWords.map (onLine (Draft.noteLine index)) := by
    rw [List.flatMap_map, itemWords, List.map_flatMap]
    exact congrArg (channel.items.flatMap ·) (funext (DraftItem.tokens_piece _))
  rw [pieces, List.flatMap_append, List.flatMap_append, opening, items]
  rfl

theorem wellFormed_of_mem_pieces (playable : channel.Playable multiplier) {index : Nat}
    {piece : Piece} (member : piece ∈ channel.pieces index) : piece.WellFormed := by
  rcases List.mem_append.1 member with first | last
  · rcases List.mem_append.1 first with inOpening | inItems
    · rcases List.mem_map.1 inOpening with ⟨token, among, rfl⟩
      exact (is_eq_false_of_mem_openingTokens among).2
    · rcases List.mem_map.1 inItems with ⟨item, among, rfl⟩
      exact DraftItem.wellFormed_piece _ (playable.countable item among)
  · rw [List.mem_singleton.1 last]
    rfl

/-- The pieces of a channel are expanded to its block. -/
theorem flatMap_expanded_pieces (playable : channel.Playable multiplier) (index : Nat) :
    (channel.pieces index).flatMap Piece.expanded = (channel.ended index).written := by
  have opening : ((channel.openingTokens index).map Piece.word).flatMap Piece.expanded =
      channel.openingTokens index := by
    rw [List.flatMap_map]
    exact List.flatMap_singleton' _
  have items : (channel.items.map (DraftItem.piece (Draft.noteLine index))).flatMap
      Piece.expanded = channel.noteTokens index := by
    rw [List.flatMap_map, noteTokens, unrolled, List.map_flatMap]
    apply List.flatMap_congr
    intro item member
    exact DraftItem.expanded_piece _ (playable.countable item member)
  rw [pieces, List.flatMap_append, List.flatMap_append, opening, items]
  rfl

theorem wellFormed_ended (channel : DraftChannel) (index : Nat) :
    (channel.ended index).WellFormed := by
  refine ⟨rfl, ?_⟩
  intro token member
  rcases List.mem_append.1 member with inOpening | inNotes
  · exact (is_eq_false_of_mem_openingTokens inOpening).1
  · rcases List.mem_map.1 inNotes with ⟨note, _, rfl⟩
    exact DraftNote.is_eq_false_of_word rfl .endchannel

/-- The block of a channel holds the words for its settings and its notes. -/
theorem ofTokens_ended (channel : DraftChannel) (index : Nat) :
    Block.ofTokens (channel.ended index).tokens = .ok (channel.block index) := by
  have shape : (channel.ended index).tokens =
      onLine (3 * index + 3) Keyword.channel.text ::
        onLine (3 * index + 3) Keyword.config.text ::
          (channel.settingsWords.map (onLine (3 * index + 3)) ++
            onLine (3 * index + 3) Keyword.endconfig.text :: channel.noteTokens index) := by
    simp [ended, openingTokens, openingWords]
  have inside : ∀ token ∈ channel.settingsWords.map (onLine (3 * index + 3)),
      token.is .endconfig = false := by
    intro token member
    rcases List.mem_map.1 member with ⟨word, among, rfl⟩
    exact is_eq_false_of_mem_settingsWords among _ .endconfig
  rw [shape]
  apply Block.ofTokens_announced rfl rfl inside rfl
  intro token member
  -- No word of a draft but the closing one has a gap above it.
  have noGap : token.blankLines = 0 := by
    rcases List.mem_append.1 member with inSettings | later
    · rcases List.mem_map.1 inSettings with ⟨word, _, rfl⟩
      rfl
    · cases later with
      | head => rfl
      | tail _ inNotes =>
          rcases List.mem_map.1 inNotes with ⟨note, _, rfl⟩
          rfl
  rw [noGap]
  exact Nat.zero_le largestGap

end DraftChannel

end ScoreSynth
