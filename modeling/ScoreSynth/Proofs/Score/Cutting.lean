import ScoreSynth.Proofs.Score.Alignment
import ScoreSynth.Token.Scan

/-!
# Cutting aligned bodies

In a body without large gaps nothing is checked but the words that end blocks and the words
around settings.  Such a body is cut exactly if it is a sequence of ended blocks whose
settings are closed, and each block is then separated in the one way that its words allow
(`Score.Block.Separates`).  Every other such body is refused for its layout, at a line that
can be read off it (`Score.Refuses`); the main result is `Score.splitBlocks_cutting`.
-/

namespace ScoreSynth.Score

open Stepwise

namespace Block

/-- Whether the tokens of a block, without the word that announces it, are separated into
given settings and notes: all of them are notes, or all but the settings that begin at the
first word that opens them and end at the next word that closes them. -/
inductive Separates : List Token → Block → Prop
  | plain {tokens : List Token} (outside : ∀ token ∈ tokens, token.is .config = false) :
      Separates tokens ⟨[], tokens⟩
  | settings {before settings after : List Token} {opening closing : Token}
      (outside : ∀ token ∈ before, token.is .config = false)
      (opens : opening.is .config = true)
      (inside : ∀ token ∈ settings, token.is .endconfig = false)
      (closes : closing.is .endconfig = true) :
      Separates (before ++ opening :: (settings ++ closing :: after)) ⟨settings, before ++ after⟩

theorem separate_eq_ok_iff_separates {tokens : List Token} {block : Block} :
    separate tokens = .ok block ↔ Separates tokens block := by
  rw [separate_eq_ok]
  constructor
  · intro separated
    rcases separated with ⟨outside, rfl⟩ |
      ⟨before, opening, settings, closing, after, rfl, outside, opens, inside, closes, rfl⟩
    · exact .plain outside
    · exact .settings outside opens inside closes
  · intro separates
    cases separates with
    | plain outside => exact .inl ⟨outside, rfl⟩
    | settings outside opens inside closes =>
        exact .inr ⟨_, _, _, _, _, rfl, outside, opens, inside, closes, rfl⟩

end Block

/-- Why a body is refused that consists of ended blocks and of what follows the last one:
for the first block whose settings are never closed or, if there is none, for the first
token behind the last block, or for being empty. -/
inductive Refuses : List EndedBlock → List Token → Fault → Prop
  | settings {earlier : List EndedBlock} {block : EndedBlock} {opening : Token}
      (later : List EndedBlock) (trailing : List Token)
      (closed : ∀ other ∈ earlier, Block.Closed other.content)
      (leaves : Block.LeavesOpen block.content opening) :
      Refuses (earlier ++ block :: later) trailing (.malformed opening.line .openConfig)
  | trailing {ended : List EndedBlock} {token : Token} (others : List Token)
      (closed : ∀ block ∈ ended, Block.Closed block.content) :
      Refuses ended (token :: others) (.malformed token.line .trailingContent)
  | empty : Refuses [] [] (.malformed 2 .noChannels)

section

variable {ended : List EndedBlock} {trailing : List Token}

/-- A body without large gaps has none inside its blocks. -/
theorem aligned_of_mem
    (small : ∀ token ∈ ended.flatMap EndedBlock.written, token.blankLines ≤ largestGap) :
    ∀ block ∈ ended, Block.Aligned block.content := by
  intro block member token inside
  have among := (Block.withoutMarker_sublist block.tokens).subset (List.mem_of_mem_tail inside)
  exact small token (List.mem_flatMap.2 ⟨block, member, List.mem_append_left _ among⟩)

/-- Without a large gap inside, a block can be read if settings can be taken out of it. -/
theorem ofTokens_of_aligned {block : EndedBlock} (aligned : Block.Aligned block.content) :
    Block.ofTokens block.tokens = Block.separate block.content := by
  have checked : Block.checkGaps block.content = .ok () := Block.checkGaps_eq_ok.2 aligned
  rw [Block.ofTokens, show Block.withoutMarker block.tokens = block.content from rfl, checked]
  rfl

theorem readable_iff_closed {block : EndedBlock} (aligned : Block.Aligned block.content) :
    (∃ read, Block.ofTokens block.tokens = .ok read) ↔ Block.Closed block.content := by
  rw [ofTokens_of_aligned aligned, Block.exists_separate_eq_ok]

theorem splitBlocks_eq_error_iff_refuses {fault : Fault}
    (wellFormed : ∀ block ∈ ended, block.WellFormed)
    (unended : ∀ token ∈ trailing, token.is .endchannel = false)
    (aligned : ∀ block ∈ ended, Block.Aligned block.content) :
    splitBlocks (ended.flatMap EndedBlock.written ++ trailing) = .error fault ↔
      Refuses ended trailing fault := by
  rw [splitBlocks_written_append_eq_error wellFormed unended]
  constructor
  · intro refused
    rcases refused with ⟨earlier, block, later, rfl, readable, failed⟩ |
      ⟨readable, ⟨token, others, rfl, rfl⟩ | ⟨rfl, rfl, rfl⟩⟩
    · rcases List.forall_mem_append.1 aligned with ⟨earlierAre, laterAre⟩
      rw [ofTokens_of_aligned (List.forall_mem_cons.1 laterAre).1] at failed
      rcases Block.separate_eq_error.1 failed with ⟨opening, leaves, rfl⟩
      exact .settings later trailing (fun other member =>
        (readable_iff_closed (earlierAre other member)).1 (readable other member)) leaves
    · exact .trailing others fun block member =>
        (readable_iff_closed (aligned block member)).1 (readable block member)
    · exact .empty
  · intro refuses
    cases refuses with
    | @settings earlier block opening later trailing closed leaves =>
        rcases List.forall_mem_append.1 aligned with ⟨earlierAre, laterAre⟩
        refine .inl ⟨earlier, block, later, rfl, fun other member =>
          (readable_iff_closed (earlierAre other member)).2 (closed other member), ?_⟩
        rw [ofTokens_of_aligned (List.forall_mem_cons.1 laterAre).1]
        exact Block.separate_eq_error.2 ⟨opening, leaves, rfl⟩
    | @trailing ended token others closed =>
        exact .inr ⟨fun block member =>
          (readable_iff_closed (aligned block member)).2 (closed block member),
          .inl ⟨token, others, rfl, rfl⟩⟩
    | empty => exact .inr ⟨List.forall_mem_nil _, .inr ⟨rfl, rfl, rfl⟩⟩

/-- A body of blocks without large gaps inside is separated block by block. -/
theorem splitBlocks_written_of_aligned (nonempty : ended ≠ [])
    (wellFormed : ∀ block ∈ ended, block.WellFormed)
    (aligned : ∀ block ∈ ended, Block.Aligned block.content) :
    splitBlocks (ended.flatMap EndedBlock.written) =
      ended.mapM fun block => Block.separate block.content := by
  rw [splitBlocks_written nonempty wellFormed, List.mapM_map]
  clear nonempty wellFormed
  induction ended with
  | nil => rfl
  | cons block others ih =>
      rcases List.forall_mem_cons.1 aligned with ⟨alignedBlock, othersAre⟩
      rw [List.mapM_cons, List.mapM_cons, ih othersAre, Function.comp_apply,
        ofTokens_of_aligned alignedBlock]

end

section

variable {tokens : List Token}

theorem exists_splitBlocks_eq_ok (small : ∀ token ∈ tokens, token.blankLines ≤ largestGap) :
    (∃ blocks, splitBlocks tokens = .ok blocks) ↔
      ∃ ended : List EndedBlock, ended ≠ [] ∧ (∀ block ∈ ended, block.WellFormed) ∧
        (∀ block ∈ ended, Block.Closed block.content) ∧
        tokens = ended.flatMap EndedBlock.written := by
  constructor
  · intro done
    rcases done with ⟨blocks, split⟩
    rcases splitBlocks_eq_ok.1 split with ⟨ended, nonempty, wellFormed, rfl, _⟩
    rw [splitBlocks_written_of_aligned nonempty wellFormed (aligned_of_mem small)] at split
    refine ⟨ended, nonempty, wellFormed, fun block member => ?_, rfl⟩
    exact Block.exists_separate_eq_ok.1 (exists_mapM_eq_ok.1 ⟨blocks, split⟩ block member)
  · intro written
    rcases written with ⟨ended, nonempty, wellFormed, closed, rfl⟩
    rw [splitBlocks_written_of_aligned nonempty wellFormed (aligned_of_mem small)]
    exact exists_mapM_eq_ok.2 fun block member =>
      Block.exists_separate_eq_ok.2 (closed block member)

theorem splitBlocks_eq_ok_iff_separates {blocks : List Block}
    (small : ∀ token ∈ tokens, token.blankLines ≤ largestGap) :
    splitBlocks tokens = .ok blocks ↔
      ∃ ended : List EndedBlock, ended ≠ [] ∧ (∀ block ∈ ended, block.WellFormed) ∧
        tokens = ended.flatMap EndedBlock.written ∧
        List.Forall₂ (fun block read => Block.Separates block.content read) ended blocks := by
  constructor
  · intro split
    rcases splitBlocks_eq_ok.1 split with ⟨ended, nonempty, wellFormed, rfl, _⟩
    rw [splitBlocks_written_of_aligned nonempty wellFormed (aligned_of_mem small)] at split
    exact ⟨ended, nonempty, wellFormed, rfl,
      (mapM_eq_ok.1 split).imp fun _ _ => Block.separate_eq_ok_iff_separates.1⟩
  · intro written
    rcases written with ⟨ended, nonempty, wellFormed, rfl, related⟩
    rw [splitBlocks_written_of_aligned nonempty wellFormed (aligned_of_mem small)]
    exact mapM_eq_ok.2 (related.imp fun _ _ => Block.separate_eq_ok_iff_separates.2)

/-- A body without large gaps is cut exactly if it consists of ended blocks, at least one,
whose settings are closed; each of them is separated into its settings and its notes.  If it
is not cut, it is refused for its layout: because of the first block whose settings are never
closed, or else because of what follows its last block, or because it is empty. -/
theorem splitBlocks_cutting (small : ∀ token ∈ tokens, token.blankLines ≤ largestGap) :
    ((∃ blocks, splitBlocks tokens = .ok blocks) ↔
      ∃ ended : List EndedBlock, ended ≠ [] ∧ (∀ block ∈ ended, block.WellFormed) ∧
        (∀ block ∈ ended, Block.Closed block.content) ∧
        tokens = ended.flatMap EndedBlock.written) ∧
    (∀ blocks, splitBlocks tokens = .ok blocks ↔
      ∃ ended : List EndedBlock, ended ≠ [] ∧ (∀ block ∈ ended, block.WellFormed) ∧
        tokens = ended.flatMap EndedBlock.written ∧
        List.Forall₂ (fun block read => Block.Separates block.content read) ended blocks) ∧
    (∀ fault, splitBlocks tokens = .error fault ↔
      ∃ (ended : List EndedBlock) (trailing : List Token),
        (∀ block ∈ ended, block.WellFormed) ∧
        (∀ token ∈ trailing, token.is .endchannel = false) ∧
        tokens = ended.flatMap EndedBlock.written ++ trailing ∧ Refuses ended trailing fault) := by
  refine ⟨exists_splitBlocks_eq_ok small, fun blocks => splitBlocks_eq_ok_iff_separates small,
    fun fault => ?_⟩
  constructor
  · intro failed
    rcases exists_ended tokens with ⟨ended, trailing, wellFormed, unended, rfl⟩
    have aligned := aligned_of_mem (List.forall_mem_append.1 small).1
    exact ⟨ended, trailing, wellFormed, unended, rfl,
      (splitBlocks_eq_error_iff_refuses wellFormed unended aligned).1 failed⟩
  · intro refused
    rcases refused with ⟨ended, trailing, wellFormed, unended, rfl, refuses⟩
    have aligned := aligned_of_mem (List.forall_mem_append.1 small).1
    exact (splitBlocks_eq_error_iff_refuses wellFormed unended aligned).2 refuses

end

/-- Two blocks with words out of place: among the settings and behind them in the first one,
and in front of the word that would announce it in the second one. -/
def tangled : List Token :=
  Token.ofLine 3 0 "channel A4,1 config 1 config endconfig endconfig endchannel".toList ++
    Token.ofLine 5 1 "endconfig channel endchannel".toList

/-- The first block of these has settings, the second one has none. -/
def tangledBlocks : List Block :=
  [⟨[⟨"1".toList, 3, 0⟩, ⟨"config".toList, 3, 0⟩],
      [⟨"A4,1".toList, 3, 0⟩, ⟨"endconfig".toList, 3, 0⟩]⟩,
    ⟨[], [⟨"endconfig".toList, 5, 1⟩, ⟨"channel".toList, 5, 0⟩]⟩]

theorem splitBlocks_cutting_tangled :
    (∀ token ∈ tangled, token.blankLines ≤ largestGap) ∧
      splitBlocks tangled = .ok tangledBlocks ∧
      ∃ ended : List EndedBlock, tangled = ended.flatMap EndedBlock.written ∧
        List.Forall₂ (fun block read => Block.Separates block.content read) ended
          tangledBlocks := by
  have small : ∀ token ∈ tangled, token.blankLines ≤ largestGap := by decide +kernel
  have split : splitBlocks tangled = .ok tangledBlocks := by decide +kernel
  rcases ((splitBlocks_cutting small).2.1 tangledBlocks).1 split with
    ⟨ended, _, _, whole, related⟩
  exact ⟨small, split, ended, whole, related⟩

/-- Settings that are never closed are reported before what follows the last block. -/
example : splitBlocks (tangled ++ Token.ofLine 6 0 "config endchannel A4,1".toList) =
    .error (.malformed 6 .openConfig) := by
  decide +kernel

end ScoreSynth.Score
