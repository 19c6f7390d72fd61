import ScoreSynth.Proofs.Score.Blocks
import ScoreSynth.Proofs.Score.Loops
import ScoreSynth.Proofs.Score.Reading
import ScoreSynth.Proofs.Token.Reading

/-!
# What becomes of every word

Behind the expansion of loops a body is cut into blocks, and each block into settings and
notes.  No word is lost by cutting.  In a body that is compiled every word ends a block,
announces one, opens or closes settings, is one of their four fields or writes one note.
There is one exception: of the words between the two around the settings, those behind the
fourth are surplus.  They are accepted and have no meaning (`Score.accounted_of_parse`).
-/

namespace ScoreSynth

open Stepwise

/-- A word that is read as a note is not reserved, for it holds a comma. -/
theorem Note.is_eq_false_of_ofToken {multiplier : Float} {token : Token} {note : Note}
    (read : Note.ofToken multiplier token = .ok note) (keyword : Keyword) :
    token.is keyword = false := by
  rcases ofToken_eq_ok.1 read with ⟨name, duration, _, divided, _⟩
  have comma : ',' ∈ token.text := by
    rw [(parts?_eq_some_iff.1 divided).1]
    exact List.mem_append_right name List.mem_cons_self
  exact Token.is_eq_false_of_mem comma (by decide) keyword

theorem Note.is_eq_false_of_mapM_ofToken {multiplier : Float} {tokens : List Token}
    {notes : List Note} (read : tokens.mapM (Note.ofToken multiplier) = .ok notes)
    {token : Token} (member : token ∈ tokens) (keyword : Keyword) :
    token.is keyword = false := by
  rcases exists_mem_of_forall₂ (mapM_eq_ok.1 read) member with ⟨note, _, readNote⟩
  exact is_eq_false_of_ofToken readNote keyword

namespace Settings

/-- Without four words the instrument is missing. -/
theorem four_le_length_of_ofWords {words : List (List Char)} {settings : Settings}
    (read : ofWords words = .ok settings) : 4 ≤ words.length := by
  rcases ofWords_eq_ok.1 read with ⟨_, _, _, _, _, readInstrument, _⟩
  apply Nat.lt_of_not_le
  intro short
  have missing : textOf words .instrument = [] := by
    rw [textOf, List.getElem?_eq_none (by exact short)]
    rfl
  rw [missing] at readInstrument
  cases readInstrument

/-- Words behind the fourth are not looked at. -/
theorem ofWords_surplus (volume transposition rate instrument : List Char)
    (surplus : List (List Char)) :
    ofWords (volume :: transposition :: rate :: instrument :: surplus) =
      ofWords [volume, transposition, rate, instrument] :=
  rfl

end Settings

namespace Score

/-- A block with settings as it is written: the word that announces it if there is one,
words before the settings, the words around the settings, their four fields, more words
among them, words behind them, and the word that ends the block. -/
structure WrittenBlock where
  marker : Option Token
  before : List Token
  opening : Token
  volume : Token
  transposition : Token
  rate : Token
  instrument : Token
  surplus : List Token
  closing : Token
  after : List Token
  ending : Token

namespace WrittenBlock

/-- The words that are read as settings. -/
def fields (written : WrittenBlock) : List Token :=
  [written.volume, written.transposition, written.rate, written.instrument]

/-- All words of the block, in their order. -/
def tokens (written : WrittenBlock) : List Token :=
  written.marker.toList ++ written.before ++
    written.opening :: (written.fields ++ written.surplus) ++
    written.closing :: written.after ++ [written.ending]

/-- Whether a block writes a channel.  Its reserved words stand in their places, its four
fields are read as the channel's settings, and the words before and behind the settings are
read as the channel's notes: each as one note, in the same order. -/
structure Writes (multiplier : Float) (written : WrittenBlock) (channel : Channel) :
    Prop where
  announces : ∀ token ∈ written.marker, token.is .channel = true
  opens : written.opening.is .config = true
  closes : written.closing.is .endconfig = true
  ends : written.ending.is .endchannel = true
  inside : ∀ token ∈ written.fields ++ written.surplus,
    token.is .endconfig = false ∧ token.is .endchannel = false
  settings_eq : Settings.ofWords (written.fields.map (·.text)) = .ok channel.settings
  notes_eq : (written.before ++ written.after).mapM (Note.ofToken multiplier) =
    .ok channel.notes.toList

/-- The block without the word that announces it and the word that ends it. -/
def content (written : WrittenBlock) : List Token :=
  written.before ++
    written.opening :: (written.fields ++ written.surplus ++ written.closing :: written.after)

/-- The block as it is cut off behind the word that ends it. -/
def ended (written : WrittenBlock) : EndedBlock :=
  ⟨written.marker.toList ++ written.content, written.ending⟩

/-- The block as it is separated into settings and notes. -/
def block (written : WrittenBlock) : Block :=
  ⟨written.fields ++ written.surplus, written.before ++ written.after⟩

theorem written_ended (written : WrittenBlock) : written.ended.written = written.tokens := by
  simp [ended, content, tokens, EndedBlock.written]

namespace Writes

variable {multiplier : Float} {written : WrittenBlock} {channel : Channel}

theorem before_plain (writes : written.Writes multiplier channel) {token : Token}
    (member : token ∈ written.before) (keyword : Keyword) : token.is keyword = false :=
  Note.is_eq_false_of_mapM_ofToken writes.notes_eq (List.mem_append_left _ member) keyword

theorem after_plain (writes : written.Writes multiplier channel) {token : Token}
    (member : token ∈ written.after) (keyword : Keyword) : token.is keyword = false :=
  Note.is_eq_false_of_mapM_ofToken writes.notes_eq (List.mem_append_right _ member) keyword

/-- Behind the words of a block no other word is mistaken for the end of the block. -/
theorem wellFormed_ended (writes : written.Writes multiplier channel) :
    written.ended.WellFormed := by
  refine ⟨writes.ends, ?_⟩
  intro token member
  simp only [ended, content, List.mem_append, List.mem_cons, Option.mem_toList] at member
  rcases member with announced | early | rfl | (among | among) | rfl | late
  · exact Token.is_eq_false_of_is (writes.announces token announced) (by decide)
  · exact writes.before_plain early .endchannel
  · exact Token.is_eq_false_of_is writes.opens (by decide)
  · exact (writes.inside token (List.mem_append_left _ among)).2
  · exact (writes.inside token (List.mem_append_right _ among)).2
  · exact Token.is_eq_false_of_is writes.closes (by decide)
  · exact writes.after_plain late .endchannel

/-- Only the marker is taken away from the front of a block. -/
theorem withoutMarker_ended (writes : written.Writes multiplier channel) :
    Block.withoutMarker written.ended.tokens = written.content := by
  have keep {token : Token} (plain : token.is .channel = false) (others : List Token) :
      Block.withoutMarker (token :: others) = token :: others :=
    if_neg (Bool.eq_false_iff.1 plain)
  cases marked : written.marker with
  | some token =>
      rw [ended, marked]
      exact if_pos (writes.announces token marked)
  | none =>
      rw [ended, content, marked]
      cases early : written.before with
      | nil => exact keep (Token.is_eq_false_of_is writes.opens (by decide)) _
      | cons token others =>
          exact keep (writes.before_plain (early ▸ List.mem_cons_self) .channel) _

theorem separate_content (writes : written.Writes multiplier channel) :
    Block.separate written.content = .ok written.block :=
  Block.separate_settings (fun _ member => writes.before_plain member .config) writes.opens
    (fun token member => (writes.inside token member).1) writes.closes

end Writes

/-- Cutting a body of such blocks gives the settings and notes of each. -/
theorem eq_map_block_of_splitBlocks {multiplier : Float} {written : List WrittenBlock}
    {channels : List Channel} {blocks : List Block}
    (writes : List.Forall₂ (Writes multiplier) written channels)
    (split : splitBlocks (written.flatMap tokens) = .ok blocks) :
    blocks = written.map block := by
  have writesSome (source : WrittenBlock) (member : source ∈ written) :
      ∃ channel ∈ channels, source.Writes multiplier channel :=
    exists_mem_of_forall₂ writes member
  have wellFormed : ∀ block ∈ written.map ended, block.WellFormed := by
    intro block member
    rcases List.mem_map.1 member with ⟨source, among, rfl⟩
    rcases writesSome source among with ⟨channel, _, writesOne⟩
    exact writesOne.wellFormed_ended
  have whole : written.flatMap tokens = (written.map ended).flatMap EndedBlock.written := by
    simp only [List.flatMap_map, written_ended]
  have some : written.map ended ≠ [] := by
    intro none
    rw [whole, none] at split
    cases split
  rw [whole, splitBlocks_written some wellFormed, mapM_eq_ok, List.map_map,
    List.forall₂_map_left_iff] at split
  have equal : List.Forall₂ (· = ·) (written.map block) blocks := by
    refine List.forall₂_map_left_iff.2 (((List.forall₂_and_left _ _).2 ⟨writesSome, split⟩).imp ?_)
    intro source block made
    rcases made with ⟨⟨channel, _, writesOne⟩, made⟩
    -- The settings can be taken out of a block in one way only.
    have separated : Block.separate (Block.withoutMarker source.ended.tokens) = .ok block :=
      (Block.ofTokens_eq_ok.1 made).2
    rw [writesOne.withoutMarker_ended, writesOne.separate_content] at separated
    exact Except.ok.inj separated
  rw [List.forall₂_eq_eq_eq] at equal
  exact equal.symm

end WrittenBlock

/-- Every sequence of tokens consists of a marker, if it begins with one, and the rest. -/
theorem Block.exists_marker (tokens : List Token) :
    ∃ marker : Option Token, (∀ token ∈ marker, token.is .channel = true) ∧
      tokens = marker.toList ++ withoutMarker tokens := by
  cases tokens with
  | nil => exact ⟨none, by simp, rfl⟩
  | cons first others =>
      by_cases announces : first.is .channel = true
      · refine ⟨some first, by simpa using announces, ?_⟩
        rw [withoutMarker, if_pos announces]
        rfl
      · refine ⟨none, by simp, ?_⟩
        rw [withoutMarker, if_neg announces]
        rfl

/-- A block that is built into a channel writes that channel. -/
theorem EndedBlock.exists_writes {multiplier : Float} {index : Nat} {ended : EndedBlock}
    {block : Block} {channel : Channel} (wellFormed : ended.WellFormed)
    (made : Block.ofTokens ended.tokens = .ok block)
    (built : buildChannel multiplier index block = .ok channel) :
    ∃ written : WrittenBlock, written.tokens = ended.written ∧
      written.Writes multiplier channel := by
  rcases buildChannel_eq_ok.1 built with ⟨settings, notes, read, readNotes, _, _, rfl⟩
  have enough := Settings.four_le_length_of_ofWords read
  rcases Block.separate_eq_ok.1 (Block.ofTokens_eq_ok.1 made).2 with ⟨_, rfl⟩ |
    ⟨before, opening, words, closing, after, whole, _, opens, inside, closes, rfl⟩
  · -- A block without settings has no fields that could be read.
    simp at enough
  match words, enough with
  | volume :: transposition :: rate :: instrument :: surplus, _ =>
      rcases Block.exists_marker ended.tokens with ⟨marker, announces, same⟩
      rw [whole] at same
      have unended (token : Token) (among : token ∈ volume :: transposition :: rate ::
          instrument :: surplus) : token.is .endchannel = false :=
        wellFormed.2 token (by
          rw [same]
          exact List.mem_append_right _ (List.mem_append_right _
            (List.mem_cons_of_mem _ (List.mem_append_left _ among))))
      refine ⟨⟨marker, before, opening, volume, transposition, rate, instrument, surplus,
        closing, after, ended.ending⟩, ?_, ?_⟩
      · simp [WrittenBlock.tokens, WrittenBlock.fields, EndedBlock.written, same]
      constructor
      case announces => exact announces
      case opens => exact opens
      case closes => exact closes
      case ends => exact wellFormed.1
      case inside => exact fun token among => ⟨inside token among, unended token among⟩
      case settings_eq =>
        rw [List.map_cons, List.map_cons, List.map_cons, List.map_cons,
          Settings.ofWords_surplus] at read
        exact read
      case notes_eq => exact readNotes

/-- Blocks that are built into channels write them, one after the other. -/
theorem exists_writes {multiplier : Float} {index : Nat} {ended : List EndedBlock}
    {blocks : List Block} {channels : List Channel}
    (wellFormed : ∀ block ∈ ended, block.WellFormed)
    (related : List.Forall₂ (fun block read => Block.ofTokens block.tokens = .ok read)
      ended blocks)
    (built : buildChannels multiplier blocks index = .ok channels) :
    ∃ written : List WrittenBlock,
      written.flatMap WrittenBlock.tokens = ended.flatMap EndedBlock.written ∧
      List.Forall₂ (WrittenBlock.Writes multiplier) written channels := by
  induction related generalizing index channels with
  | nil =>
      cases built
      exact ⟨[], rfl, .nil⟩
  | cons made others ih =>
      rcases List.forall_mem_cons.1 wellFormed with ⟨first, othersAre⟩
      rw [buildChannels_cons] at built
      rcases bind_eq_ok.1 built with ⟨channel, builtFirst, built⟩
      rcases bind_eq_ok.1 built with ⟨following, builtOthers, final⟩
      cases final
      rcases EndedBlock.exists_writes first made builtFirst with ⟨written, same, writes⟩
      rcases ih othersAre builtOthers with ⟨later, sameLater, writeLater⟩
      refine ⟨written :: later, ?_, .cons writes writeLater⟩
      rw [List.flatMap_cons, List.flatMap_cons, same, sameLater]

/-- Whether every word of a body has a meaning for the channels it writes: no block has
surplus words. -/
def EveryWordCounts (multiplier : Float) (tokens : List Token) (channels : List Channel) :
    Prop :=
  ∃ written : List WrittenBlock, tokens = written.flatMap WrittenBlock.tokens ∧
    List.Forall₂ (WrittenBlock.Writes multiplier) written channels ∧
    ∀ block ∈ written, block.surplus = []

/-- If every word counts, no settings have more than four words. -/
theorem length_settings_of_everyWordCounts {multiplier : Float} {tokens : List Token}
    {channels : List Channel} {blocks : List Block}
    (counts : EveryWordCounts multiplier tokens channels)
    (split : splitBlocks tokens = .ok blocks) :
    ∀ block ∈ blocks, block.settings.length ≤ 4 := by
  rcases counts with ⟨written, rfl, writes, nothing⟩
  rw [WrittenBlock.eq_map_block_of_splitBlocks writes split]
  intro block member
  rcases List.mem_map.1 member with ⟨source, among, rfl⟩
  simp [WrittenBlock.block, WrittenBlock.fields, nothing source among]

/-- In a score that is read every word has its place in the blocks that write the channels,
and nothing but surplus words behind the four fields of settings is without meaning.  Every
word counts exactly if no settings have more than four words. -/
theorem accounted_of_parse {source : List Char} {score : Score}
    (read : parse source = .ok score) :
    ∃ tokens body expanded blocks, Token.scan source = .ok tokens ∧
      takeGlobals tokens = .ok (score.tempo, body) ∧ expandLoops body = .ok expanded ∧
      splitBlocks expanded = .ok blocks ∧
      (∃ written : List WrittenBlock, expanded = written.flatMap WrittenBlock.tokens ∧
        List.Forall₂ (WrittenBlock.Writes score.tempo.multiplier) written score.channels) ∧
      (EveryWordCounts score.tempo.multiplier expanded score.channels ↔
        ∀ block ∈ blocks, block.settings.length ≤ 4) := by
  rcases parse_eq_ok.1 read with ⟨tokens, body, scanned, taken, compiled⟩
  rcases compile_eq_ok.1 compiled with ⟨expanded, blocks, expand, split, built⟩
  rcases splitBlocks_eq_ok.1 split with ⟨ended, _, wellFormed, cut, related⟩
  rcases exists_writes wellFormed related built with ⟨written, same, writes⟩
  rw [← cut] at same
  refine ⟨tokens, body, expanded, blocks, scanned, taken, expand, split,
    ⟨written, same.symm, writes⟩, ?_, ?_⟩
  · exact fun counts => length_settings_of_everyWordCounts counts split
  · intro four
    -- The settings of the blocks are the four fields and the surplus, so there is no surplus.
    refine ⟨written, same.symm, writes, ?_⟩
    intro block member
    rw [← same] at split
    rw [WrittenBlock.eq_map_block_of_splitBlocks writes split] at four
    have length := four block.block (List.mem_map_of_mem member)
    simp only [WrittenBlock.block, WrittenBlock.fields, List.length_append, List.length_cons,
      List.length_nil] at length
    exact List.eq_nil_of_length_eq_zero (by omega)

/-- A voice that plays a note before its settings and rests behind them.  More words can
be written behind the four fields. -/
def interlude (surplus : List Char) : List Char :=
  Text.joinLines
    [Document.header, "globalconfig tempo 100% endglobalconfig".toList,
     "channel A4,250 config volume=100 transpos=0 ".toList ++
       "samplerate=default instrument=sinwave ".toList ++ surplus ++ " endconfig".toList,
     "pause,250 endchannel".toList]

theorem accounted_of_parse_interlude :
    ∃ score tokens body expanded, parse (interlude []) = .ok score ∧
      Token.scan (interlude []) = .ok tokens ∧
      takeGlobals tokens = .ok (score.tempo, body) ∧ expandLoops body = .ok expanded ∧
      EveryWordCounts score.tempo.multiplier expanded score.channels := by
  have readable : (parse (interlude [])).toOption.isSome = true := by decide +kernel
  have four : (do
      let tokens ← Token.scan (interlude [])
      let taken ← takeGlobals tokens
      let expanded ← expandLoops taken.2
      let blocks ← splitBlocks expanded
      return blocks.map (List.length ∘ Block.settings)) = .ok [4] := by
    decide +kernel
  cases read : parse (interlude []) with
  | error fault =>
      rw [read] at readable
      cases readable
  | ok score =>
      rcases accounted_of_parse read with
        ⟨tokens, body, expanded, blocks, scanned, taken, expand, split, _, counts⟩
      simp only [scanned, taken, expand, split, ok_bind] at four
      refine ⟨score, tokens, body, expanded, rfl, scanned, taken, expand, counts.2 ?_⟩
      intro block member
      have among := List.mem_map_of_mem (f := List.length ∘ Block.settings) member
      rw [Except.ok.inj four] at among
      exact Nat.le_of_eq (List.mem_singleton.1 among)

/-- A note among the settings is accepted, and is not played. -/
theorem not_everyWordCounts_interlude :
    ∃ score tokens body expanded, parse (interlude "B4,500".toList) = .ok score ∧
      Token.scan (interlude "B4,500".toList) = .ok tokens ∧
      takeGlobals tokens = .ok (score.tempo, body) ∧ expandLoops body = .ok expanded ∧
      ⟨"B4,500".toList, 3, 0⟩ ∈ expanded ∧
      score.channels.map (fun channel => channel.notes.toList.map (·.pitch)) =
        [[Pitch.tuningKey, Pitch.rest]] ∧
      ¬ EveryWordCounts score.tempo.multiplier expanded score.channels := by
  have played : (parse (interlude "B4,500".toList)).map (fun score =>
      score.channels.map fun channel => channel.notes.toList.map (·.pitch)) =
        .ok [[Pitch.tuningKey, Pitch.rest]] := by
    decide +kernel
  have five : (do
      let tokens ← Token.scan (interlude "B4,500".toList)
      let taken ← takeGlobals tokens
      let expanded ← expandLoops taken.2
      let blocks ← splitBlocks expanded
      return (expanded.contains ⟨"B4,500".toList, 3, 0⟩,
        blocks.map (List.length ∘ Block.settings))) = .ok (true, [5]) := by
    decide +kernel
  cases read : parse (interlude "B4,500".toList) with
  | error fault =>
      rw [read] at played
      cases played
  | ok score =>
      rcases parse_eq_ok.1 read with ⟨tokens, body, scanned, taken, compiled⟩
      rcases compile_eq_ok.1 compiled with ⟨expanded, blocks, expand, split, _⟩
      rw [read] at played
      simp only [scanned, taken, expand, split, ok_bind] at five
      rcases Prod.mk.inj (Except.ok.inj five) with ⟨among, five⟩
      refine ⟨score, tokens, body, expanded, rfl, scanned, taken, expand, ?_,
        Except.ok.inj played, ?_⟩
      · exact List.contains_iff_mem.1 among
      intro counts
      have four := length_settings_of_everyWordCounts counts split
      have long : ∃ block ∈ blocks, (List.length ∘ Block.settings) block = 5 :=
        List.mem_map.1 (five ▸ List.mem_singleton_self 5)
      rcases long with ⟨block, member, length⟩
      have few := four block member
      rw [show block.settings.length = 5 from length] at few
      exact absurd few (by decide)

end Score

end ScoreSynth
