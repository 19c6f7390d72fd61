import ScoreSynth.Proofs.Score.Blocks
import ScoreSynth.Proofs.Score.Reading

/-!
# Gaps inside a block

Only the first token of a block is meant to stand below more than one empty line.  The word
that announces a block is taken away before the gaps are checked, though, and then one more
token is left out of the check: the one behind that word.  A block that is announced may
therefore have large gaps above its first two tokens (`Score.accepts_detached`).  All other
gaps are checked, block by block, and nothing else is ever refused for a gap
(`Score.splitBlocks_alignment`).
-/

namespace ScoreSynth.Score

namespace Block

/-- Whether no token of a block stands below a large gap, except perhaps the first one. -/
def Aligned (tokens : List Token) : Prop :=
  ∀ token ∈ tokens.tail, token.blankLines ≤ largestGap

instance (tokens : List Token) : Decidable (Aligned tokens) :=
  inferInstanceAs (Decidable (∀ token ∈ tokens.tail, _))

/-- The token behind the word that announces a block is the only one that is left out of the
check although it is not the first one. -/
theorem aligned_iff_of_withoutMarker {tokens : List Token}
    (aligned : Aligned (withoutMarker tokens)) :
    Aligned tokens ↔ ∀ marker second others, tokens = marker :: second :: others →
      marker.is .channel = true → second.blankLines ≤ largestGap := by
  constructor
  · intro all marker second others whole _
    rw [whole] at all
    exact all second List.mem_cons_self
  · intro second
    match tokens, second, aligned with
    | [], _, _ => exact List.forall_mem_nil _
    | first :: others, second, aligned =>
        rw [withoutMarker] at aligned
        split at aligned
        · next announces =>
            cases others with
            | nil => exact List.forall_mem_nil _
            | cons next later =>
                exact List.forall_mem_cons.2 ⟨second first next later rfl announces, aligned⟩
        · exact aligned

end Block

namespace EndedBlock

/-- The tokens of a block without the word that announces it, if there is one, and without
the word that ends it. -/
def content (block : EndedBlock) : List Token :=
  Block.withoutMarker block.tokens

end EndedBlock

/-- Whether a token stands below the first large gap of its block that is checked, and every
block before that one can be read. -/
def FirstGap (tokens : List Token) (token : Token) : Prop :=
  ∃ (earlier : List EndedBlock) (block : EndedBlock) (rest : List Token),
    tokens = earlier.flatMap EndedBlock.written ++ (block.written ++ rest) ∧
    (∀ other ∈ earlier, other.WellFormed ∧ Block.Aligned other.content ∧
      Block.Closed other.content) ∧
    block.WellFormed ∧ Block.Gapped block.content token

/-- The rest of a body can be cut behind any blocks that are cut off in front of it. -/
theorem exists_ended_append {earlier : List EndedBlock} {block : EndedBlock}
    (earlierAre : ∀ other ∈ earlier, other.WellFormed) (blockIs : block.WellFormed)
    (rest : List Token) :
    ∃ (later : List EndedBlock) (trailing : List Token),
      (∀ other ∈ earlier ++ block :: later, other.WellFormed) ∧
      (∀ token ∈ trailing, token.is .endchannel = false) ∧
      earlier.flatMap EndedBlock.written ++ (block.written ++ rest) =
        (earlier ++ block :: later).flatMap EndedBlock.written ++ trailing := by
  rcases exists_ended rest with ⟨later, trailing, laterAre, unended, rfl⟩
  refine ⟨later, trailing, ?_, unended, ?_⟩
  · exact List.forall_mem_append.2 ⟨earlierAre, List.forall_mem_cons.2 ⟨blockIs, laterAre⟩⟩
  · rw [List.flatMap_append, List.flatMap_cons, List.append_assoc, List.append_assoc]

/-- A body is refused for a gap exactly when it has a first one among those that are checked
and large. -/
theorem splitBlocks_eq_misaligned {tokens : List Token} {line gap : Nat} :
    splitBlocks tokens = .error (.misaligned line gap) ↔
      ∃ token, FirstGap tokens token ∧ token.line = line ∧ token.blankLines = gap := by
  constructor
  · intro failed
    rcases exists_ended tokens with ⟨ended, trailing, wellFormed, unended, rfl⟩
    rcases (splitBlocks_written_append_eq_error wellFormed unended).1 failed with
      ⟨earlier, block, later, rfl, readable, failed⟩ |
      ⟨_, ⟨_, _, _, impossible⟩ | ⟨_, _, impossible⟩⟩
    · rcases Block.ofTokens_eq_error.1 failed with ⟨token, gapped, same⟩ | ⟨_, _, _, impossible⟩
      · cases same
        rcases List.forall_mem_append.1 wellFormed with ⟨earlierAre, laterAre⟩
        refine ⟨token, ⟨earlier, block, later.flatMap EndedBlock.written ++ trailing, ?_, ?_,
          (List.forall_mem_cons.1 laterAre).1, gapped⟩, rfl, rfl⟩
        · rw [List.flatMap_append, List.flatMap_cons, List.append_assoc, List.append_assoc]
        · exact fun other member =>
            ⟨earlierAre other member, Block.exists_ofTokens_eq_ok.1 (readable other member)⟩
      · cases impossible
    · cases impossible
    · cases impossible
  · intro gapped
    rcases gapped with
      ⟨token, ⟨earlier, block, rest, rfl, earlierAre, blockIs, gapped⟩, rfl, rfl⟩
    have wellFormed := fun other member => (earlierAre other member).1
    rcases exists_ended_append wellFormed blockIs rest with
      ⟨later, trailing, wholeAre, unended, whole⟩
    rw [whole]
    refine (splitBlocks_written_append_eq_error wholeAre unended).2
      (.inl ⟨earlier, block, later, rfl, ?_, Block.ofTokens_eq_error.2 (.inl ⟨token, gapped, rfl⟩)⟩)
    exact fun other member => Block.exists_ofTokens_eq_ok.2 (earlierAre other member).2

/-- A large gap that is found is not above the first token of its block. -/
theorem FirstGap.exists_mem_tail {tokens : List Token} {token : Token}
    (found : FirstGap tokens token) :
    ∃ block ∈ (tokens.splitOnP (·.is .endchannel)).dropLast, token ∈ block.tail ∧
      largestGap < token.blankLines := by
  rcases found with ⟨earlier, block, rest, rfl, earlierAre, blockIs, gapped⟩
  have wellFormed := fun other member => (earlierAre other member).1
  rcases exists_ended_append wellFormed blockIs rest with
    ⟨later, trailing, wholeAre, unended, whole⟩
  rcases gapped with ⟨before, after, behind, _, large⟩
  have member : token ∈ block.content.tail := by simp [behind]
  rw [whole, splitOnP_written_append wholeAre unended, List.dropLast_concat]
  exact ⟨block.tokens, List.mem_map_of_mem (by simp),
    (Block.withoutMarker_sublist block.tokens).tail.subset member, large⟩

/-- What the check of gaps amounts to.  A refusal blames the first large gap that is checked,
in the first block that cannot be read.  In a body that is cut every gap is small, except
above the first token of a block and above the token behind the word that announces it; so
only first tokens stand below large gaps exactly if no such second token does.  A body in
which only first tokens of blocks stand below large gaps is never refused for a gap. -/
theorem splitBlocks_alignment (tokens : List Token) :
    (∀ line gap, splitBlocks tokens = .error (.misaligned line gap) ↔
      ∃ token, FirstGap tokens token ∧ token.line = line ∧ token.blankLines = gap) ∧
    (∀ blocks, splitBlocks tokens = .ok blocks →
      ∀ block ∈ (tokens.splitOnP (·.is .endchannel)).dropLast,
        Block.Aligned (Block.withoutMarker block) ∧
        (Block.Aligned block ↔ ∀ marker second others, block = marker :: second :: others →
          marker.is .channel = true → second.blankLines ≤ largestGap)) ∧
    ((∀ block ∈ (tokens.splitOnP (·.is .endchannel)).dropLast, Block.Aligned block) →
      ∀ line gap, splitBlocks tokens ≠ .error (.misaligned line gap)) := by
  refine ⟨fun line gap => splitBlocks_eq_misaligned, ?_, ?_⟩
  · intro blocks split block member
    have aligned : Block.Aligned (Block.withoutMarker block) :=
      blankLines_le_of_splitBlocks split block member
    exact ⟨aligned, Block.aligned_iff_of_withoutMarker aligned⟩
  · intro aligned line gap failed
    rcases splitBlocks_eq_misaligned.1 failed with ⟨token, found, _, _⟩
    rcases found.exists_mem_tail with ⟨block, member, inside, large⟩
    exact Nat.not_lt_of_le (aligned block member token inside) large

/-- The words of a voice on four lines, with a gap above its settings and one above its
note. -/
def detachedBody (settings note : Nat) : List Token :=
  Token.ofLine 3 0 "channel".toList ++
    Token.ofLine 6 settings "config 100 0 default sinwave endconfig".toList ++
    Token.ofLine 9 note "A4,100".toList ++ Token.ofLine 10 0 "endchannel".toList

/-- The gap above the settings is not checked, because the word that announces the voice
stands alone above it.  The gap above the note is checked. -/
theorem splitBlocks_alignment_detached :
    (∃ blocks, splitBlocks (detachedBody 2 1) = .ok blocks ∧
      ∀ block ∈ ((detachedBody 2 1).splitOnP (·.is .endchannel)).dropLast,
        Block.Aligned (Block.withoutMarker block)) ∧
      splitBlocks (detachedBody 2 2) = .error (.misaligned 9 2) ∧
      ∀ line gap, splitBlocks (detachedBody 1 1) ≠ .error (.misaligned line gap) := by
  have cut : (splitBlocks (detachedBody 2 1)).toOption.isSome = true := by decide +kernel
  have refused : splitBlocks (detachedBody 2 2) = .error (.misaligned 9 2) := by decide +kernel
  have aligned : ∀ block ∈ ((detachedBody 1 1).splitOnP (·.is .endchannel)).dropLast,
      Block.Aligned block := by
    decide +kernel
  refine ⟨?_, refused, (splitBlocks_alignment _).2.2 aligned⟩
  cases split : splitBlocks (detachedBody 2 1) with
  | error fault =>
      rw [split] at cut
      cases cut
  | ok blocks =>
      refine ⟨blocks, rfl, fun block member => ?_⟩
      exact ((splitBlocks_alignment _).2.1 blocks split block member).1

/-- A document in which two empty lines separate the word that announces a voice from the
settings of the voice. -/
def detached : List Char :=
  Text.joinLines
    [Document.header, "globalconfig tempo 100% endglobalconfig".toList, "channel".toList,
     [], [], "config 100 0 default sinwave endconfig".toList, [], [';'], "A4,100".toList,
     "endchannel".toList]

/-- The second token of a block may stand below two empty lines. -/
theorem accepts_detached :
    (parse detached).toOption.isSome = true ∧
      (do let tokens ← Token.scan detached
          takeGlobals tokens) = .ok (⟨100⟩, detachedBody 2 0) ∧
      (splitBlocks (detachedBody 2 0)).toOption.isSome = true ∧
      ∃ block ∈ ((detachedBody 2 0).splitOnP (·.is .endchannel)).dropLast,
        ∃ token ∈ block.tail, token.is .config = true ∧ largestGap < token.blankLines := by
  decide +kernel

end ScoreSynth.Score
