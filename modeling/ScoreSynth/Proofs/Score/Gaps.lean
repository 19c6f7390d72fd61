import ScoreSynth.Proofs.Score.Blocks
import ScoreSynth.Proofs.Score.Loops
import ScoreSynth.Proofs.Score.Reading

/-!
# Gaps and loops

The gaps inside a block are checked when its loops have been expanded.  By then the words
that open and close the loops are gone, and the gaps above them are gone with them: such a
word may stand below any number of empty lines.  The body of a loop is still there, so its
gaps are checked as they are outside of loops.  Both halves are in `Score.gaps_of_parse`.
-/

namespace ScoreSynth.Score

open Stepwise

/-! ## Gaps above the words of loops -/

/-- Forget the gap above a word that opens or closes a loop. -/
def level (token : Token) : Token :=
  if isLoopMark token then { token with blankLines := 0 } else token

theorem text_level (token : Token) : (level token).text = token.text := by
  rw [level]
  split <;> rfl

theorem line_level (token : Token) : (level token).line = token.line := by
  rw [level]
  split <;> rfl

theorem is_level (token : Token) (keyword : Keyword) :
    (level token).is keyword = token.is keyword := by
  rw [Token.is, Token.is, text_level]

theorem isLoopMark_level (token : Token) : isLoopMark (level token) = isLoopMark token := by
  rw [isLoopMark, isLoopMark, is_level, is_level]

/-- Only the marks of a body are changed. -/
theorem cut_map_level (tokens : List Token) :
    Runs.cut isLoopMark (tokens.map level) =
      ⟨(Runs.cut isLoopMark tokens).first,
        (Runs.cut isLoopMark tokens).later.map fun (mark, run) => (level mark, run)⟩ := by
  induction tokens with
  | nil => rfl
  | cons token others ih =>
      rw [List.map_cons, Runs.cut_cons, Runs.cut_cons, ih, Runs.extend, Runs.extend,
        isLoopMark_level]
      split
      · rfl
      · next plain => rw [level, if_neg plain]

theorem unroll_level (opening : Token) (inside : List Token) :
    unroll (level opening) inside = unroll opening inside := by
  cases inside with
  | nil => rw [unroll, unroll, line_level]
  | cons count body => rfl

theorem unrollRuns_map_level (runs : List (Token × List Token)) :
    unrollRuns (runs.map fun (mark, run) => (level mark, run)) = unrollRuns runs := by
  fun_induction unrollRuns runs with
  | case1 => rfl
  | case2 mark inside others stray =>
      cases others <;> simp [unrollRuns, is_level, line_level, stray]
  | case3 mark inside opens => simp [unrollRuns, is_level, line_level, opens]
  | case4 mark inside opens next outside others nested =>
      simp [unrollRuns, is_level, line_level, opens, nested]
  | case5 mark inside opens next outside others closes ih =>
      simp [unrollRuns, is_level, unroll_level, opens, closes, ih]

/-- The gaps above the words that open and close loops have no influence. -/
theorem expandLoops_map_level (tokens : List Token) :
    expandLoops (tokens.map level) = expandLoops tokens := by
  simp only [expandLoops, cut_map_level, unrollRuns_map_level]

theorem compile_eq_of_map_level {multiplier : Float} {tokens others : List Token}
    (same : others.map level = tokens.map level) :
    compile multiplier others = compile multiplier tokens := by
  rw [compile, compile, ← expandLoops_map_level others, same, expandLoops_map_level]

/-! ## Gaps above all other words -/

/-- A body without the words of its loops: as if every loop were played once, without
being written as a loop. -/
def withoutLoopWords (tokens : List Token) : List Token :=
  let runs := Runs.cut isLoopMark tokens
  runs.first ++ runs.later.flatMap fun (mark, run) =>
    if mark.is .loop then run.tail else run

/-- Whether no block ends inside a loop. -/
def LoopsWithinBlocks (tokens : List Token) : Prop :=
  ∀ run ∈ (Runs.cut isLoopMark tokens).later, run.1.is .loop = true →
    ∀ token ∈ run.2, token.is .endchannel = false

instance (tokens : List Token) : Decidable (LoopsWithinBlocks tokens) :=
  inferInstanceAs (Decidable (∀ run ∈ _, _))

namespace Piece

/-- The tokens of a piece without the words of its loop. -/
def played : Piece → List Token
  | word token => [token]
  | loop _ _ body _ => body

theorem expanded_subset_played (piece : Piece) : piece.expanded ⊆ piece.played := by
  cases piece with
  | word token => exact List.Subset.refl [token]
  | loop opening count body closing => exact copies_subset _ body

end Piece

theorem withoutLoopWords_append {piece : Piece} (wellFormed : piece.WellFormed)
    (others : List Token) :
    withoutLoopWords (piece.tokens ++ others) = piece.played ++ withoutLoopWords others := by
  cases piece with
  | word token =>
      have plain : isLoopMark token = false := wellFormed
      simp only [withoutLoopWords, Piece.tokens, Piece.played, List.cons_append,
        List.nil_append, Runs.cut_cons_of_plain plain]
  | loop opening count body closing =>
      simp only [withoutLoopWords, cut_loop_append wellFormed others]
      rcases wellFormed with ⟨opens, closes, _⟩
      simp only [Piece.played, List.flatMap_cons, opens, is_loop_eq_false closes, if_true,
        Bool.false_eq_true, if_false, List.tail_cons, List.nil_append]

/-- If no block ends inside a loop, a piece is the word that ends a block, or none of its
words does. -/
theorem LoopsWithinBlocks.of_append {piece : Piece} {others : List Token}
    (wellFormed : piece.WellFormed) (within : LoopsWithinBlocks (piece.tokens ++ others)) :
    LoopsWithinBlocks others ∧
      ((∃ token, piece = .word token ∧ token.is .endchannel = true) ∨
        ∀ token ∈ piece.played, token.is .endchannel = false) := by
  cases piece with
  | word token =>
      have plain : isLoopMark token = false := wellFormed
      simp only [LoopsWithinBlocks, Piece.tokens, List.singleton_append,
        Runs.cut_cons_of_plain plain] at within
      refine ⟨within, ?_⟩
      by_cases ends : token.is .endchannel = true
      · exact .inl ⟨token, rfl, ends⟩
      · exact .inr (List.forall_mem_singleton.2 (Bool.eq_false_iff.2 ends))
  | loop opening count body closing =>
      rw [LoopsWithinBlocks, cut_loop_append wellFormed others] at within
      rcases List.forall_mem_cons.1 within with ⟨inside, within⟩
      refine ⟨(List.forall_mem_cons.1 within).2, .inr ?_⟩
      exact fun token member => inside wellFormed.1 token (List.mem_cons_of_mem _ member)

/-- Whether a list is a part of another that begins like it. -/
def Abridges (short long : List Token) : Prop :=
  short.Sublist long ∧ short.head? = long.head?

namespace Abridges

variable {short long shorter longer : List Token}

theorem refl (tokens : List Token) : Abridges tokens tokens :=
  ⟨List.Sublist.refl tokens, rfl⟩

theorem append (first : Abridges short long) (second : Abridges shorter longer) :
    Abridges (short ++ shorter) (long ++ longer) := by
  refine ⟨first.1.append second.1, ?_⟩
  rw [List.head?_append, List.head?_append, first.2, second.2]

/-- A part that begins like the whole still is one without the marker. -/
theorem withoutMarker (abridges : Abridges short long) :
    (Block.withoutMarker short).Sublist (Block.withoutMarker long) := by
  rcases abridges with ⟨part, same⟩
  cases short with
  | nil => exact List.nil_sublist _
  | cons first others =>
      cases long with
      | nil => cases same
      | cons other later =>
          cases same
          rw [Block.withoutMarker, Block.withoutMarker]
          split
          · exact part.tail
          · exact part

end Abridges

/-- A loop is played at least once, and from its beginning. -/
theorem Piece.abridges {piece : Piece} (wellFormed : piece.WellFormed) :
    Abridges piece.played piece.expanded := by
  cases piece with
  | word token => exact Abridges.refl [token]
  | loop opening count body closing =>
      rcases wellFormed with ⟨_, _, _, number, read, enough⟩
      obtain ⟨more, rfl⟩ : ∃ more, number = more + 1 := ⟨number - 1, by omega⟩
      have again : (List.replicate (more + 1) body).flatten =
          body ++ (List.replicate more body).flatten := by
        rw [List.replicate_succ, List.flatten_cons]
      rw [played, expanded, read, Option.getD_some, copies_eq, again]
      refine ⟨List.sublist_append_left _ _, ?_⟩
      cases body with
      | nil => simp
      | cons first others => rfl

/-! ### Blocks of a body without loop words -/

/-- Words that end no block make the first block longer. -/
theorem splitOnP_append {before : List Token}
    (plain : ∀ token ∈ before, token.is .endchannel = false) (others : List Token) :
    (before ++ others).splitOnP (·.is .endchannel) =
      (others.splitOnP (·.is .endchannel)).modifyHead (before ++ ·) := by
  induction before with
  | nil =>
      rw [List.nil_append]
      cases others.splitOnP (·.is .endchannel) <;> rfl
  | cons token later ih =>
      rcases List.forall_mem_cons.1 plain with ⟨inside, laterPlain⟩
      rw [List.cons_append, List.splitOnP_cons_eq_if_modifyHead, ih laterPlain,
        if_neg (Bool.eq_false_iff.1 inside), List.modifyHead_modifyHead]
      rfl

theorem forall₂_modifyHead {short long : List Token} {shorter longer : List (List Token)}
    (first : Abridges short long) (related : List.Forall₂ Abridges shorter longer) :
    List.Forall₂ Abridges (shorter.modifyHead (short ++ ·)) (longer.modifyHead (long ++ ·)) := by
  cases related with
  | nil => exact .nil
  | cons head others => exact .cons (first.append head) others

/-- Block by block, a body without loop words is a part of the expanded body, and begins
like it. -/
theorem abridges_blocks {pieces : List Piece} (wellFormed : ∀ piece ∈ pieces, piece.WellFormed)
    (within : LoopsWithinBlocks (pieces.flatMap Piece.tokens)) :
    List.Forall₂ Abridges
      ((withoutLoopWords (pieces.flatMap Piece.tokens)).splitOnP (·.is .endchannel))
      ((pieces.flatMap Piece.expanded).splitOnP (·.is .endchannel)) := by
  induction pieces with
  | nil => exact .cons (Abridges.refl []) .nil
  | cons piece others ih =>
      rcases List.forall_mem_cons.1 wellFormed with ⟨first, othersAre⟩
      rw [List.flatMap_cons] at within
      rcases within.of_append first with ⟨withinOthers, inside⟩
      have related := ih othersAre withinOthers
      rw [List.flatMap_cons, List.flatMap_cons, withoutLoopWords_append first]
      -- A piece either ends the first block, or makes it longer on both sides.
      rcases inside with ⟨token, rfl, ends⟩ | plain
      · simp only [Piece.played, Piece.expanded, List.singleton_append,
          List.splitOnP_cons_eq_if_modifyHead, if_pos ends]
        exact .cons (Abridges.refl []) related
      · have copiesPlain : ∀ token ∈ piece.expanded, token.is .endchannel = false :=
          fun token member => plain token (piece.expanded_subset_played member)
        rw [splitOnP_append plain, splitOnP_append copiesPlain]
        exact forall₂_modifyHead (Piece.abridges first) related

theorem blankLines_le_of_compile {multiplier : Float} {tokens : List Token}
    {channels : List Channel} (within : LoopsWithinBlocks tokens)
    (compiled : compile multiplier tokens = .ok channels) :
    ∀ block ∈ ((withoutLoopWords tokens).splitOnP (·.is .endchannel)).dropLast,
      ∀ token ∈ (Block.withoutMarker block).tail, token.blankLines ≤ largestGap := by
  rcases compile_eq_ok.1 compiled with ⟨expanded, blocks, expand, split, _⟩
  rcases expandLoops_eq_ok.1 expand with ⟨pieces, wellFormed, rfl, rfl⟩
  -- Every block of the body is found again in the expanded body, where gaps were checked.
  have related := abridges_blocks wellFormed within
  have small := blankLines_le_of_splitBlocks split
  rw [List.dropLast_eq_take, related.length_eq]
  rw [List.dropLast_eq_take] at small
  intro block member token inside
  rcases exists_mem_of_forall₂ (List.forall₂_take _ related) member with ⟨long, among, abridges⟩
  exact small long among token (abridges.withoutMarker.tail.subset inside)

/-! ## Documents -/

/-- What is known about the gaps of a document whose global settings can be read.  The gaps
above words that open or close loops, whatever they are, have no influence on the result.
If no block ends inside a loop and the document is accepted, then of the words that are left
of a block without the words of its loops, only the first may have a gap of more than one
line. -/
theorem gaps_of_parse {source : List Char} {tokens body : List Token} {tempo : Tempo}
    (scanned : Token.scan source = .ok tokens)
    (taken : takeGlobals tokens = .ok (tempo, body)) :
    (∀ other otherTokens otherBody, Token.scan other = .ok otherTokens →
      takeGlobals otherTokens = .ok (tempo, otherBody) →
      otherBody.map level = body.map level → parse other = parse source) ∧
    (LoopsWithinBlocks body → ∀ score, parse source = .ok score →
      ∀ block ∈ ((withoutLoopWords body).splitOnP (·.is .endchannel)).dropLast,
        ∀ token ∈ (Block.withoutMarker block).tail, token.blankLines ≤ largestGap) := by
  constructor
  · intro other otherTokens otherBody otherScanned otherTaken same
    simp only [parse, scanned, taken, otherScanned, otherTaken, ok_bind,
      compile_eq_of_map_level same]
  · intro within score read
    rcases parse_eq_ok.1 read with ⟨_, _, scannedAgain, takenAgain, compiled⟩
    cases scanned.symm.trans scannedAgain
    cases taken.symm.trans takenAgain
    exact blankLines_le_of_compile within compiled

/-- A voice that plays one note, and another one in a loop three lines below. -/
def interrupted (between : List Char) : List Char :=
  Text.joinLines
    [Document.header, "globalconfig tempo 100% endglobalconfig".toList,
     "channel config 100 0 default sinwave endconfig".toList, "A4,100".toList,
     between, between, "loop 2 B4,100 endloop".toList, "endchannel".toList]

/-- The words of this voice, with a gap above the loop. -/
def interruptedBody (gap : Nat) : List Token :=
  Token.ofLine 3 0 "channel config 100 0 default sinwave endconfig".toList ++
    Token.ofLine 4 0 "A4,100".toList ++ Token.ofLine 7 gap "loop 2 B4,100 endloop".toList ++
    Token.ofLine 8 0 "endchannel".toList

/-- The tokens of the document, with a gap above the loop. -/
def interruptedTokens (gap : Nat) : List Token :=
  Token.ofLine 2 0 "globalconfig tempo 100% endglobalconfig".toList ++ interruptedBody gap

theorem scan_interrupted :
    Token.scan (interrupted []) = .ok (interruptedTokens 2) ∧
      Token.scan (interrupted [';']) = .ok (interruptedTokens 0) := by
  decide +kernel

theorem takeGlobals_interrupted :
    takeGlobals (interruptedTokens 2) = .ok (⟨100⟩, interruptedBody 2) ∧
      takeGlobals (interruptedTokens 0) = .ok (⟨100⟩, interruptedBody 0) := by
  decide +kernel

theorem loopsWithinBlocks_interrupted : LoopsWithinBlocks (interruptedBody 2) := by
  decide +kernel

theorem isSome_parse_interrupted : (parse (interrupted [])).toOption.isSome = true := by
  decide +kernel

theorem gaps_of_parse_interrupted :
    parse (interrupted [';']) = parse (interrupted []) ∧
      ∃ score, parse (interrupted []) = .ok score ∧
        ∀ block ∈ ((withoutLoopWords (interruptedBody 2)).splitOnP (·.is .endchannel)).dropLast,
          ∀ token ∈ (Block.withoutMarker block).tail, token.blankLines ≤ largestGap := by
  have gaps := gaps_of_parse scan_interrupted.1 takeGlobals_interrupted.1
  have same : (interruptedBody 0).map level = (interruptedBody 2).map level := by
    decide +kernel
  refine ⟨gaps.1 _ _ _ scan_interrupted.2 takeGlobals_interrupted.2 same, ?_⟩
  cases read : parse (interrupted []) with
  | error fault =>
      have readable := isSome_parse_interrupted
      rw [read] at readable
      cases readable
  | ok score => exact ⟨score, rfl, gaps.2 loopsWithinBlocks_interrupted score read⟩

/-- A loop inside a block may stand below two empty lines. -/
theorem accepts_interrupted :
    (parse (interrupted [])).toOption.isSome = true ∧
      Token.scan (interrupted []) = .ok (interruptedTokens 2) ∧
      takeGlobals (interruptedTokens 2) = .ok (⟨100⟩, interruptedBody 2) ∧
      LoopsWithinBlocks (interruptedBody 2) ∧
      ∃ block ∈ ((interruptedBody 2).splitOnP (·.is .endchannel)).dropLast,
        ∃ token ∈ block.tail, token.is .loop = true ∧ largestGap < token.blankLines := by
  have gapped : ∃ block ∈ ((interruptedBody 2).splitOnP (·.is .endchannel)).dropLast,
      ∃ token ∈ block.tail, token.is .loop = true ∧ largestGap < token.blankLines := by
    decide +kernel
  exact ⟨isSome_parse_interrupted, scan_interrupted.1, takeGlobals_interrupted.1,
    loopsWithinBlocks_interrupted, gapped⟩

end ScoreSynth.Score
