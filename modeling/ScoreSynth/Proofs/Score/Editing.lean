import ScoreSynth.Proofs.Score.Blocks
import ScoreSynth.Proofs.Score.Loops
import ScoreSynth.Proofs.Score.Reading
import ScoreSynth.Proofs.Token.Edit

/-!
# Edited scores

No pass over the tokens of a document looks at more of their places than the gaps inside
blocks, and those must only not be large.  A score is therefore still read when its tokens
get other lines and shorter gaps, and it is the same score, except for the lines on which
its notes were written (`parse_of_edit`).
-/

namespace ScoreSynth

/-- A note without its place. -/
def Note.withoutLine (note : Note) : Note :=
  { note with line := 0 }

/-- A channel whose notes have no place. -/
def Channel.withoutLines (channel : Channel) : Channel :=
  { channel with notes := channel.notes.map Note.withoutLine }

namespace Score

open Stepwise

section

variable {change : Token → Token} (relaxes : Token.Relaxes change)

include relaxes

theorem is_change (token : Token) (keyword : Keyword) :
    (change token).is keyword = token.is keyword := by
  rw [Token.is, Token.is, relaxes.text_eq]

theorem forall_is_change {tokens : List Token} {keyword : Keyword} {value : Bool}
    (all : ∀ token ∈ tokens, token.is keyword = value) :
    ∀ token ∈ tokens.map change, token.is keyword = value := by
  intro token member
  rcases List.mem_map.1 member with ⟨before, among, rfl⟩
  rw [is_change relaxes, all before among]

/-! ## Global settings -/

theorem tempoOfToken_change {token : Token} {tempo : Tempo}
    (read : tempoOfToken token = .ok tempo) : tempoOfToken (change token) = .ok tempo := by
  simp only [tempoOfToken, relaxes.text_eq] at read ⊢
  generalize Option.filter _ _ = percent at read ⊢
  cases percent with
  | none => cases read
  | some number => exact read

theorem readGlobals_map {last result : Option Tempo} {tokens : List Token}
    (read : readGlobals last tokens = .ok result) :
    readGlobals last (tokens.map change) = .ok result := by
  fun_induction readGlobals last tokens with
  | case1 last => exact read
  | case2 last name others unknown => cases read
  | case3 last name known => cases read
  | case4 last name known value others ih =>
      rcases bind_eq_ok.1 read with ⟨tempo, readFirst, readOthers⟩
      simp only [Bool.not_eq_true, Bool.not_eq_false'] at known
      rw [List.map_cons, List.map_cons, readGlobals, is_change relaxes, known,
        tempoOfToken_change relaxes readFirst]
      exact ih tempo readOthers

theorem takeGlobals_map {tokens body : List Token} {tempo : Tempo}
    (taken : takeGlobals tokens = .ok (tempo, body)) :
    takeGlobals (tokens.map change) = .ok (tempo, body.map change) := by
  rcases takeGlobals_eq_ok.1 taken with
    ⟨opening, inside, closing, rfl, opens, inner, closes, read⟩
  refine takeGlobals_eq_ok.2
    ⟨change opening, inside.map change, change closing, ?_, ?_, ?_, ?_, ?_⟩
  · simp
  · rw [is_change relaxes, opens]
  · exact forall_is_change relaxes inner
  · rw [is_change relaxes, closes]
  · exact readGlobals_map relaxes read

/-! ## Loops -/

omit relaxes in
/-- Change the tokens of a piece. -/
def Piece.map (change : Token → Token) : Piece → Piece
  | .word token => .word (change token)
  | .loop opening count body closing =>
      .loop (change opening) (change count) (body.map change) (change closing)

omit relaxes in
theorem tokens_map (piece : Piece) : (piece.map change).tokens = piece.tokens.map change := by
  cases piece <;> simp [Piece.map, Piece.tokens]

theorem number?_change (token : Token) : Piece.number? (change token) = Piece.number? token := by
  rw [Piece.number?, Piece.number?, relaxes.text_eq]

theorem expanded_map (piece : Piece) :
    (piece.map change).expanded = piece.expanded.map change := by
  cases piece with
  | word token => rfl
  | loop opening count body closing =>
      simp only [Piece.map, Piece.expanded, number?_change relaxes, copies_eq, List.map_flatten,
        List.map_replicate]

theorem isLoopMark_change (token : Token) : isLoopMark (change token) = isLoopMark token := by
  rw [isLoopMark, isLoopMark, is_change relaxes, is_change relaxes]

theorem wellFormed_map {piece : Piece} (wellFormed : piece.WellFormed) :
    (piece.map change).WellFormed := by
  cases piece with
  | word token => exact (isLoopMark_change relaxes token).trans wellFormed
  | loop opening count body closing =>
      rcases wellFormed with ⟨opens, closes, plain, number, read, enough⟩
      refine ⟨?_, ?_, ?_, number, ?_, enough⟩
      · rw [is_change relaxes, opens]
      · rw [is_change relaxes, closes]
      · rw [← List.map_cons]
        intro token member
        rcases List.mem_map.1 member with ⟨before, among, rfl⟩
        rw [isLoopMark_change relaxes, plain before among]
      · rw [number?_change relaxes, read]

theorem expandLoops_map {tokens expanded : List Token}
    (expand : expandLoops tokens = .ok expanded) :
    expandLoops (tokens.map change) = .ok (expanded.map change) := by
  rcases expandLoops_eq_ok.1 expand with ⟨pieces, wellFormed, rfl, rfl⟩
  refine expandLoops_eq_ok.2 ⟨pieces.map (Piece.map change), ?_, ?_, ?_⟩
  · intro piece member
    rcases List.mem_map.1 member with ⟨before, among, rfl⟩
    exact wellFormed_map relaxes (wellFormed before among)
  · simp only [List.map_flatMap, List.flatMap_map, tokens_map]
  · simp only [List.map_flatMap, List.flatMap_map, expanded_map relaxes]

/-! ## Blocks -/

omit relaxes in
/-- Change the tokens of a block. -/
def Block.map (change : Token → Token) (block : Block) : Block :=
  ⟨block.settings.map change, block.notes.map change⟩

omit relaxes in
/-- Change the tokens of a block with its closing word. -/
def EndedBlock.map (change : Token → Token) (block : EndedBlock) : EndedBlock :=
  ⟨block.tokens.map change, change block.ending⟩

theorem separate_map {tokens : List Token} {block : Block}
    (separated : Block.separate tokens = .ok block) :
    Block.separate (tokens.map change) = .ok (block.map change) := by
  rcases Block.separate_eq_ok.1 separated with ⟨plain, rfl⟩ |
    ⟨before, opening, settings, closing, after, rfl, outside, opens, inside, closes, rfl⟩
  · exact Block.separate_eq_ok.2 (.inl ⟨forall_is_change relaxes plain, rfl⟩)
  · refine Block.separate_eq_ok.2 (.inr ⟨before.map change, change opening,
      settings.map change, change closing, after.map change, ?_, ?_, ?_, ?_, ?_, ?_⟩)
    · simp
    · exact forall_is_change relaxes outside
    · rw [is_change relaxes, opens]
    · exact forall_is_change relaxes inside
    · rw [is_change relaxes, closes]
    · simp [Block.map]

theorem withoutMarker_map (tokens : List Token) :
    Block.withoutMarker (tokens.map change) = (Block.withoutMarker tokens).map change := by
  cases tokens with
  | nil => rfl
  | cons first others =>
      rw [List.map_cons, Block.withoutMarker, Block.withoutMarker, is_change relaxes]
      split <;> rfl

/-- Shorter gaps are no reason to refuse a block. -/
theorem ofTokens_map {tokens : List Token} {block : Block}
    (read : Block.ofTokens tokens = .ok block) :
    Block.ofTokens (tokens.map change) = .ok (block.map change) := by
  rcases Block.ofTokens_eq_ok.1 read with ⟨small, separated⟩
  rw [Block.ofTokens_eq_ok, withoutMarker_map relaxes, ← List.map_tail]
  refine ⟨?_, separate_map relaxes separated⟩
  intro token member
  rcases List.mem_map.1 member with ⟨before, among, rfl⟩
  exact (relaxes.blankLines_le before).trans (small before among)

theorem splitBlocks_map {tokens : List Token} {blocks : List Block}
    (split : splitBlocks tokens = .ok blocks) :
    splitBlocks (tokens.map change) = .ok (blocks.map (Block.map change)) := by
  rcases splitBlocks_eq_ok.1 split with ⟨ended, nonempty, wellFormed, rfl, related⟩
  refine splitBlocks_eq_ok.2 ⟨ended.map (EndedBlock.map change), ?_, ?_, ?_, ?_⟩
  · simpa using nonempty
  · intro block member
    rcases List.mem_map.1 member with ⟨before, among, rfl⟩
    rcases wellFormed before among with ⟨ends, inside⟩
    exact ⟨(is_change relaxes _ _).trans ends, forall_is_change relaxes inside⟩
  · simp [List.map_flatMap, List.flatMap_map, EndedBlock.map, EndedBlock.written]
  · rw [List.forall₂_map_left_iff, List.forall₂_map_right_iff]
    exact related.imp fun block read => ofTokens_map relaxes

/-! ## Channels -/

omit relaxes in
theorem totalDuration_withoutLine (notes : List Note) :
    Channel.totalDuration (notes.map Note.withoutLine) = Channel.totalDuration notes := by
  induction notes with
  | nil => rfl
  | cons note others ih =>
      rw [List.map_cons, Channel.totalDuration_cons, Channel.totalDuration_cons, ih]
      rfl

theorem ofToken_change {multiplier : Float} {token : Token} {note : Note}
    (read : Note.ofToken multiplier token = .ok note) :
    Note.ofToken multiplier (change token) =
      .ok { note with line := (change token).line } := by
  rcases Note.ofToken_eq_ok.1 read with ⟨name, duration, written, parts, pitch, number, scaled, _⟩
  exact Note.ofToken_eq_ok.2 ⟨name, duration, written, by rwa [relaxes.text_eq], pitch, number,
    scaled, rfl⟩

/-- Changed tokens are read as notes that differ in their lines at most. -/
theorem exists_notes_map {multiplier : Float} {tokens : List Token} {notes : List Note}
    (read : tokens.mapM (Note.ofToken multiplier) = .ok notes) :
    ∃ others, (tokens.map change).mapM (Note.ofToken multiplier) = .ok others ∧
      others.map Note.withoutLine = notes.map Note.withoutLine := by
  simp only [mapM_eq_ok] at read ⊢
  induction read with
  | nil => exact ⟨[], .nil, rfl⟩
  | @cons token note tokens notes first later ih =>
      rcases ih with ⟨others, readOthers, same⟩
      refine ⟨{ note with line := (change token).line } :: others,
        .cons (ofToken_change relaxes first) readOthers, ?_⟩
      rw [List.map_cons, List.map_cons, same]
      rfl

theorem buildChannel_map {multiplier : Float} {index : Nat} {block : Block} {channel : Channel}
    (built : buildChannel multiplier index block = .ok channel) :
    ∃ other, buildChannel multiplier index (block.map change) = .ok other ∧
      other.withoutLines = channel.withoutLines := by
  rcases buildChannel_eq_ok.1 built with ⟨settings, notes, words, read, admitted, fits, rfl⟩
  rcases exists_notes_map relaxes read with ⟨others, readOthers, same⟩
  have texts : (block.map change).settings.map (·.text) = block.settings.map (·.text) := by
    simp [Block.map, relaxes.text_eq]
  have total : Channel.totalDuration others = Channel.totalDuration notes := by
    rw [← totalDuration_withoutLine others, same, totalDuration_withoutLine]
  have allAdmitted : ∀ note ∈ others, settings.Admits note := by
    have unplaced : ∀ note ∈ notes.map Note.withoutLine, settings.Admits note :=
      List.forall_mem_map.2 admitted
    rw [← same] at unplaced
    exact fun note member => unplaced note.withoutLine (List.mem_map_of_mem member)
  refine ⟨⟨index, settings, others.toArray, Channel.totalDuration others⟩,
    buildChannel_eq_ok.2 ⟨settings, others, ?_, readOthers, allAdmitted, ?_, rfl⟩, ?_⟩
  · rw [texts, words]
  · rw [total]
    exact fits
  · simp [Channel.withoutLines, total, same]

theorem buildChannels_map {multiplier : Float} {blocks : List Block} {index : Nat}
    {channels : List Channel} (built : buildChannels multiplier blocks index = .ok channels) :
    ∃ others, buildChannels multiplier (blocks.map (Block.map change)) index = .ok others ∧
      others.map Channel.withoutLines = channels.map Channel.withoutLines := by
  induction blocks generalizing index channels with
  | nil => exact ⟨channels, built, rfl⟩
  | cons block later ih =>
      rw [buildChannels_cons] at built
      rcases bind_eq_ok.1 built with ⟨channel, first, built⟩
      rcases bind_eq_ok.1 built with ⟨following, rest, final⟩
      cases final
      rcases buildChannel_map relaxes first with ⟨other, builtFirst, same⟩
      rcases ih rest with ⟨others, builtLater, sameLater⟩
      refine ⟨other :: others, ?_, ?_⟩
      · rw [List.map_cons, buildChannels_cons, builtFirst, ok_bind, builtLater]
        rfl
      · rw [List.map_cons, List.map_cons, same, sameLater]

/-! ## Documents -/

theorem compile_map {multiplier : Float} {tokens : List Token} {channels : List Channel}
    (compiled : compile multiplier tokens = .ok channels) :
    ∃ others, compile multiplier (tokens.map change) = .ok others ∧
      others.map Channel.withoutLines = channels.map Channel.withoutLines := by
  rcases compile_eq_ok.1 compiled with ⟨expanded, blocks, expand, split, built⟩
  rcases buildChannels_map relaxes built with ⟨others, builtOthers, same⟩
  exact ⟨others, compile_eq_ok.2 ⟨_, _, expandLoops_map relaxes expand,
    splitBlocks_map relaxes split, builtOthers⟩, same⟩

end

theorem parse_of_edit {source edited : List Char} {score : Score} (edit : Text.Edit source edited)
    (read : parse source = .ok score) :
    ∃ other, parse edited = .ok other ∧ other.tempo = score.tempo ∧
      other.channels.map Channel.withoutLines = score.channels.map Channel.withoutLines := by
  rcases parse_eq_ok.1 read with ⟨tokens, body, scanned, taken, compiled⟩
  rcases Token.scan_of_edit edit scanned with ⟨change, relaxes, scannedOther⟩
  rcases compile_map relaxes compiled with ⟨channels, compiledOther, same⟩
  exact ⟨⟨score.tempo, channels⟩, parse_eq_ok.2 ⟨_, _, scannedOther,
    takeGlobals_map relaxes taken, compiledOther⟩, rfl, same⟩

/-- A document reads the same with carriage returns before its line feeds, whether it can be
read or not.  A comment that is put into a document that can be read, on a line of its own or
at the end of any line, leaves everything as it is but the lines of notes. -/
theorem parse_layout (source : List Char) :
    parse (Text.withReturns source) = parse source ∧
      ∀ edited score, Text.Edit source edited → parse source = .ok score →
        ∃ other, parse edited = .ok other ∧ other.tempo = score.tempo ∧
          other.channels.map Channel.withoutLines =
            score.channels.map Channel.withoutLines := by
  refine ⟨?_, fun edited score edit read => parse_of_edit edit read⟩
  rw [parse, parse, Token.scan_withReturns]

/-- The upper part of a document, up to a blank line between two notes. -/
def firstBar : List (List Char) :=
  [Document.header, "globalconfig tempo 100% endglobalconfig".toList,
   "channel config 100 0 default sinwave endconfig".toList, "A4,100".toList, []]

/-- The lower part of that document. -/
def secondBar : List Char :=
  "B4,100 endchannel\n".toList

def barComment : List Char :=
  "  ; second bar".toList

theorem edit_insert_barComment :
    Text.Edit (Text.joinLines firstBar ++ secondBar)
      (Text.joinLines firstBar ++ barComment ++ '\n' :: secondBar) :=
  .insert (by decide +kernel) (by decide)
    ⟨"  ".toList, " second bar".toList, by decide, List.all_eq_true.1 (by decide), by decide⟩

theorem parse_layout_bars :
    parse (Text.withReturns (Text.joinLines firstBar ++ secondBar)) =
        parse (Text.joinLines firstBar ++ secondBar) ∧
      ∃ score other, parse (Text.joinLines firstBar ++ secondBar) = .ok score ∧
        parse (Text.joinLines firstBar ++ barComment ++ '\n' :: secondBar) = .ok other ∧
        other.tempo = score.tempo ∧
        other.channels.map Channel.withoutLines = score.channels.map Channel.withoutLines := by
  have readable : (parse (Text.joinLines firstBar ++ secondBar)).toOption.isSome = true := by
    decide +kernel
  refine ⟨(parse_layout _).1, ?_⟩
  cases read : parse (Text.joinLines firstBar ++ secondBar) with
  | error fault =>
      rw [read] at readable
      cases readable
  | ok score =>
      rcases (parse_layout _).2 _ score edit_insert_barComment read with ⟨other, result⟩
      exact ⟨score, other, rfl, result⟩

end Score

end ScoreSynth
