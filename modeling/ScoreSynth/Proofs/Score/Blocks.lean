import ScoreSynth.Proofs.Runs
import ScoreSynth.Proofs.Stepwise
import ScoreSynth.Score.Blocks

/-!
# Cutting blocks

A body in which every block is ended by its closing word is cut into these blocks
again, and a block in which the settings stand between their two words is separated
into the settings and everything else.  No other body can be cut
(`splitBlocks_eq_ok`), and no other block separated (`Block.separate_eq_ok`).  A body that
cannot be cut is refused for the first block that cannot be read, or else for what follows
its last block or for having none (`splitBlocks_written_append_eq_error`).
-/

namespace ScoreSynth.Score

open Stepwise

/-- A body without a closing word, and the closing word behind it. -/
structure EndedBlock where
  tokens : List Token
  ending : Token

namespace EndedBlock

/-- The tokens of a block together with the word that ends it. -/
def written (block : EndedBlock) : List Token :=
  block.tokens ++ [block.ending]

/-- Whether the last word of a block, and no other, ends it. -/
def WellFormed (block : EndedBlock) : Prop :=
  block.ending.is .endchannel = true ∧ ∀ token ∈ block.tokens, token.is .endchannel = false

end EndedBlock

/-- Ended blocks are cut behind each of them, and what follows the last one is left. -/
theorem splitOnP_written_append {ended : List EndedBlock} {trailing : List Token}
    (wellFormed : ∀ block ∈ ended, block.WellFormed)
    (unended : ∀ token ∈ trailing, token.is .endchannel = false) :
    (ended.flatMap EndedBlock.written ++ trailing).splitOnP (·.is .endchannel) =
      ended.map (·.tokens) ++ [trailing] := by
  induction ended with
  | nil => exact List.splitOnP_eq_singleton unended
  | cons block others ih =>
      rcases List.forall_mem_cons.1 wellFormed with ⟨⟨closes, inside⟩, othersAre⟩
      rw [List.flatMap_cons, EndedBlock.written, List.append_assoc, List.append_assoc,
        List.singleton_append]
      rw [List.splitOnP_append_cons_of_forall_mem (p := fun token : Token =>
        token.is .endchannel) inside block.ending closes]
      rw [ih othersAre]
      rfl

/-- Every body consists of ended blocks and of what follows the last one. -/
theorem exists_ended (tokens : List Token) :
    ∃ (ended : List EndedBlock) (trailing : List Token),
      (∀ block ∈ ended, block.WellFormed) ∧
      (∀ token ∈ trailing, token.is .endchannel = false) ∧
      tokens = ended.flatMap EndedBlock.written ++ trailing := by
  induction tokens with
  | nil => exact ⟨[], [], List.forall_mem_nil _, List.forall_mem_nil _, rfl⟩
  | cons token others ih =>
      rcases ih with ⟨ended, trailing, wellFormed, unended, rfl⟩
      by_cases closes : token.is .endchannel = true
      · refine ⟨⟨[], token⟩ :: ended, trailing, ?_, unended, rfl⟩
        exact List.forall_mem_cons.2 ⟨⟨closes, List.forall_mem_nil _⟩, wellFormed⟩
      · have inside : token.is .endchannel = false := Bool.eq_false_iff.2 closes
        cases ended with
        | nil =>
            exact ⟨[], token :: trailing, wellFormed,
              List.forall_mem_cons.2 ⟨inside, unended⟩, rfl⟩
        | cons block later =>
            rcases List.forall_mem_cons.1 wellFormed with ⟨⟨ends, plain⟩, laterAre⟩
            refine ⟨⟨token :: block.tokens, block.ending⟩ :: later, trailing, ?_, unended, rfl⟩
            exact List.forall_mem_cons.2
              ⟨⟨ends, List.forall_mem_cons.2 ⟨inside, plain⟩⟩, laterAre⟩

/-- A body is read block by block.  What follows the last block is refused, and so is a
body without blocks. -/
theorem splitBlocks_written_append {ended : List EndedBlock} {trailing : List Token}
    (wellFormed : ∀ block ∈ ended, block.WellFormed)
    (unended : ∀ token ∈ trailing, token.is .endchannel = false) :
    splitBlocks (ended.flatMap EndedBlock.written ++ trailing) = do
      let blocks ← (ended.map (·.tokens)).mapM Block.ofTokens
      match trailing with
      | token :: _ => throw (.malformed token.line .trailingContent)
      | [] => if blocks.isEmpty then throw (.malformed 2 .noChannels) else return blocks := by
  simp only [splitBlocks, splitOnP_written_append wellFormed unended, List.dropLast_concat,
    List.getLast?_concat]
  cases trailing <;> rfl

/-- A body that ends with a block is read block by block. -/
theorem splitBlocks_written {ended : List EndedBlock} (nonempty : ended ≠ [])
    (wellFormed : ∀ block ∈ ended, block.WellFormed) :
    splitBlocks (ended.flatMap EndedBlock.written) =
      (ended.map (·.tokens)).mapM Block.ofTokens := by
  rw [← List.append_nil (ended.flatMap _),
    splitBlocks_written_append wellFormed (List.forall_mem_nil _)]
  cases read : (ended.map (·.tokens)).mapM Block.ofTokens with
  | error fault => rfl
  | ok blocks =>
      have same := (mapM_eq_ok.1 read).length_eq
      cases blocks with
      | nil => simp [nonempty] at same
      | cons block others => rfl

/-- A body is cut into blocks exactly when it consists of ended blocks, at least one, and
each of them can be read. -/
theorem splitBlocks_eq_ok {tokens : List Token} {blocks : List Block} :
    splitBlocks tokens = .ok blocks ↔
      ∃ ended : List EndedBlock, ended ≠ [] ∧ (∀ block ∈ ended, block.WellFormed) ∧
        tokens = ended.flatMap EndedBlock.written ∧
        List.Forall₂ (fun block read => Block.ofTokens block.tokens = .ok read)
          ended blocks := by
  constructor
  · intro split
    rcases exists_ended tokens with ⟨ended, trailing, wellFormed, unended, rfl⟩
    rw [splitBlocks_written_append wellFormed unended] at split
    rcases bind_eq_ok.1 split with ⟨read, each, final⟩
    have related := List.forall₂_map_left_iff.1 (mapM_eq_ok.1 each)
    cases trailing with
    | cons token others => cases final
    | nil =>
        cases related with
        | nil => cases final
        | cons readFirst readOthers =>
            cases final
            exact ⟨_, List.cons_ne_nil _ _, wellFormed, List.append_nil _,
              .cons readFirst readOthers⟩
  · intro written
    rcases written with ⟨ended, nonempty, wellFormed, rfl, related⟩
    rw [splitBlocks_written nonempty wellFormed]
    exact mapM_eq_ok.2 (List.forall₂_map_left_iff.2 related)

namespace Block

theorem withoutMarker_sublist (tokens : List Token) : (withoutMarker tokens).Sublist tokens := by
  cases tokens with
  | nil => exact List.Sublist.refl []
  | cons first others =>
      rw [withoutMarker]
      split
      · exact List.sublist_cons_self first others
      · exact List.Sublist.refl _

/-- The settings are the words between the first word that opens them and the next one
that closes them. -/
theorem separate_settings {before settings after : List Token} {opening closing : Token}
    (outside : ∀ token ∈ before, token.is .config = false)
    (opens : opening.is .config = true)
    (inside : ∀ token ∈ settings, token.is .endconfig = false)
    (closes : closing.is .endconfig = true) :
    separate (before ++ opening :: (settings ++ closing :: after)) =
      .ok ⟨settings, before ++ after⟩ := by
  have plain : ∀ token ∈ before, (! token.is .config) = true := by
    simpa using outside
  have kept : ∀ token ∈ settings, (! token.is .endconfig) = true := by
    simpa using inside
  simp only [separate]
  rw [Runs.dropWhile_append_cons plain (by simp [opens])]
  rw [Runs.takeWhile_append_cons plain (by simp [opens])]
  dsimp only
  rw [Runs.dropWhile_append_cons kept (by simp [closes])]
  rw [Runs.takeWhile_append_cons kept (by simp [closes])]

/-- A block is separated exactly when it has no settings, or settings between the first
word that opens them and the next one that closes them. -/
theorem separate_eq_ok {tokens : List Token} {block : Block} :
    separate tokens = .ok block ↔
      (∀ token ∈ tokens, token.is .config = false) ∧ block = ⟨[], tokens⟩ ∨
        ∃ before opening settings closing after,
          tokens = before ++ opening :: (settings ++ closing :: after) ∧
          (∀ token ∈ before, token.is .config = false) ∧ opening.is .config = true ∧
          (∀ token ∈ settings, token.is .endconfig = false) ∧
          closing.is .endconfig = true ∧ block = ⟨settings, before ++ after⟩ := by
  constructor
  · intro separated
    simp only [separate] at separated
    split at separated
    · next plain =>
        cases separated
        exact .inl ⟨by simpa [List.dropWhile_eq_nil_iff] using plain, rfl⟩
    · next opening others opened =>
        split at separated
        · cases separated
        · next closing after closed =>
            cases separated
            rcases Runs.eq_append_cons_of_dropWhile opened with ⟨whole, outside, opens⟩
            rcases Runs.eq_append_cons_of_dropWhile closed with ⟨rest, inside, closes⟩
            refine .inr ⟨_, opening, _, closing, after, ?_, ?_, ?_, ?_, ?_, rfl⟩
            · rw [← rest]
              exact whole
            · simpa using outside
            · simpa using opens
            · simpa using inside
            · simpa using closes
  · intro written
    cases written with
    | inl whole =>
        have none : tokens.dropWhile (! ·.is .config) = [] := by
          simpa [List.dropWhile_eq_nil_iff] using whole.1
        simp only [separate, none, whole.2]
    | inr cut =>
        rcases cut with ⟨before, opening, settings, closing, after, rfl, outside, opens,
          inside, closes, rfl⟩
        exact separate_settings outside opens inside closes

/-- Only the gap above the first token of a block may be large. -/
theorem checkGaps_eq_ok {tokens : List Token} {done : Unit} :
    checkGaps tokens = .ok done ↔
      ∀ token ∈ tokens.tail, token.blankLines ≤ largestGap := by
  rw [checkGaps]
  constructor
  · intro allowed
    split at allowed
    · next none => simpa using none
    · cases allowed
  · intro small
    have none : tokens.tail.find? (largestGap < ·.blankLines) = none := by simpa using small
    rw [none]

/-- The tokens before a closing word make up a block exactly when the gaps are small and
the settings can be taken out. -/
theorem ofTokens_eq_ok {tokens : List Token} {block : Block} :
    ofTokens tokens = .ok block ↔
      (∀ token ∈ (withoutMarker tokens).tail, token.blankLines ≤ largestGap) ∧
        separate (withoutMarker tokens) = .ok block := by
  simp only [ofTokens, bind_eq_ok, checkGaps_eq_ok, exists_and_left, exists_const]

/-- A block that is announced, and begins with its settings. -/
theorem ofTokens_announced {marker opening closing : Token} {settings notes : List Token}
    (announces : marker.is .channel = true) (opens : opening.is .config = true)
    (inside : ∀ token ∈ settings, token.is .endconfig = false)
    (closes : closing.is .endconfig = true)
    (small : ∀ token ∈ settings ++ closing :: notes, token.blankLines ≤ largestGap) :
    ofTokens (marker :: opening :: (settings ++ closing :: notes)) =
      .ok ⟨settings, notes⟩ := by
  have separated : separate (opening :: (settings ++ closing :: notes)) =
      .ok ⟨settings, notes⟩ :=
    separate_settings (List.forall_mem_nil _) opens inside closes
  have allowed : checkGaps (opening :: (settings ++ closing :: notes)) = .ok () :=
    checkGaps_eq_ok.2 small
  rw [ofTokens, withoutMarker, if_pos announces, allowed]
  exact separated

/-! ## Blocks that cannot be read -/

/-- Whether the first word of a block that opens settings is a given one, and no word behind
it closes them. -/
def LeavesOpen (tokens : List Token) (opening : Token) : Prop :=
  ∃ before after, tokens = before ++ opening :: after ∧
    (∀ token ∈ before, token.is .config = false) ∧ opening.is .config = true ∧
    ∀ token ∈ after, token.is .endconfig = false

/-- Whether the settings of a block are closed if they are opened. -/
def Closed (tokens : List Token) : Prop :=
  ∀ before opening after, tokens = before ++ opening :: after →
    (∀ token ∈ before, token.is .config = false) → opening.is .config = true →
    ∃ token ∈ after, token.is .endconfig = true

theorem closed_iff {tokens : List Token} :
    Closed tokens ↔ ∀ opening, ¬ LeavesOpen tokens opening := by
  constructor
  · intro closed opening leaves
    rcases leaves with ⟨before, after, whole, outside, opens, inside⟩
    rcases closed before opening after whole outside opens with ⟨token, member, closes⟩
    rw [inside token member] at closes
    cases closes
  · intro never before opening after whole outside opens
    apply Decidable.byContradiction
    intro unclosed
    refine never opening ⟨before, after, whole, outside, opens, fun token member => ?_⟩
    exact Bool.eq_false_iff.2 fun closes => unclosed ⟨token, member, closes⟩

/-- Settings cannot be taken out of a block exactly when they are never closed. -/
theorem separate_eq_error {tokens : List Token} {fault : Fault} :
    separate tokens = .error fault ↔
      ∃ opening, LeavesOpen tokens opening ∧ fault = .malformed opening.line .openConfig := by
  constructor
  · intro failed
    simp only [separate] at failed
    split at failed
    · cases failed
    next opening others opened =>
    split at failed
    · next unclosed =>
        cases failed
        rcases Runs.eq_append_cons_of_dropWhile opened with ⟨whole, outside, opens⟩
        refine ⟨opening, ⟨_, others, whole, by simpa using outside, by simpa using opens, ?_⟩, rfl⟩
        simpa [List.dropWhile_eq_nil_iff] using unclosed
    · cases failed
  · intro leaves
    rcases leaves with ⟨opening, ⟨before, after, rfl, outside, opens, inside⟩, rfl⟩
    have plain : ∀ token ∈ before, (! token.is .config) = true := by simpa using outside
    have unclosed : after.dropWhile (! ·.is .endconfig) = [] := by
      simpa [List.dropWhile_eq_nil_iff] using inside
    simp only [separate]
    rw [Runs.dropWhile_append_cons plain (by simp [opens])]
    dsimp only
    rw [unclosed]

/-- Settings can be taken out of a block exactly when they are closed. -/
theorem exists_separate_eq_ok {tokens : List Token} :
    (∃ block, separate tokens = .ok block) ↔ Closed tokens := by
  rw [closed_iff]
  cases separated : separate tokens with
  | ok block =>
      refine iff_of_true ⟨block, rfl⟩ fun opening leaves => ?_
      rw [separate_eq_error.2 ⟨opening, leaves, rfl⟩] at separated
      cases separated
  | error fault =>
      rcases separate_eq_error.1 separated with ⟨opening, leaves, _⟩
      refine iff_of_false (fun done => ?_) fun never => never opening leaves
      rcases done with ⟨_, impossible⟩
      cases impossible

/-- Whether a token is the first one below a large gap, of those behind the first token of a
block. -/
def Gapped (tokens : List Token) (token : Token) : Prop :=
  ∃ before after, tokens.tail = before ++ token :: after ∧
    (∀ other ∈ before, other.blankLines ≤ largestGap) ∧ largestGap < token.blankLines

theorem checkGaps_eq_error {tokens : List Token} {fault : Fault} :
    checkGaps tokens = .error fault ↔
      ∃ token, Gapped tokens token ∧ fault = .misaligned token.line token.blankLines := by
  rw [checkGaps]
  constructor
  · intro failed
    split at failed
    · cases failed
    · next token found =>
        cases failed
        rcases List.find?_eq_some_iff_append.1 found with ⟨large, before, after, whole, small⟩
        refine ⟨token, ⟨before, after, whole, ?_, by simpa using large⟩, rfl⟩
        simpa using small
  · intro gapped
    rcases gapped with ⟨token, ⟨before, after, whole, small, large⟩, rfl⟩
    have found : tokens.tail.find? (largestGap < ·.blankLines) = some token := by
      refine List.find?_eq_some_iff_append.2 ⟨by simpa using large, before, after, whole, ?_⟩
      simpa using small
    rw [found]

/-- The tokens before a closing word make up no block exactly when there is a large gap among
them or, if there is none, settings are never closed. -/
theorem ofTokens_eq_error {tokens : List Token} {fault : Fault} :
    ofTokens tokens = .error fault ↔
      (∃ token, Gapped (withoutMarker tokens) token ∧
        fault = .misaligned token.line token.blankLines) ∨
      (∀ token ∈ (withoutMarker tokens).tail, token.blankLines ≤ largestGap) ∧
        ∃ opening, LeavesOpen (withoutMarker tokens) opening ∧
          fault = .malformed opening.line .openConfig := by
  simp only [ofTokens, bind_eq_error, checkGaps_eq_error, checkGaps_eq_ok, separate_eq_error,
    exists_and_left, exists_const]

/-- The tokens before a closing word make up a block exactly when the gaps are small and the
settings are closed. -/
theorem exists_ofTokens_eq_ok {tokens : List Token} :
    (∃ block, ofTokens tokens = .ok block) ↔
      (∀ token ∈ (withoutMarker tokens).tail, token.blankLines ≤ largestGap) ∧
        Closed (withoutMarker tokens) := by
  simp only [ofTokens_eq_ok, exists_and_left, exists_separate_eq_ok]

end Block

/-- In blocks that were cut only the first gap may be large. -/
theorem blankLines_le_of_splitBlocks {tokens : List Token} {blocks : List Block}
    (split : splitBlocks tokens = .ok blocks) :
    ∀ block ∈ (tokens.splitOnP (·.is .endchannel)).dropLast,
      ∀ token ∈ (Block.withoutMarker block).tail, token.blankLines ≤ largestGap := by
  rcases bind_eq_ok.1 split with ⟨read, each, _⟩
  intro block member
  rcases exists_mem_of_forall₂ (mapM_eq_ok.1 each) member with ⟨result, _, made⟩
  exact (Block.ofTokens_eq_ok.1 made).1

/-- A body is refused exactly when there is a first block that cannot be read or, if there is
none, when tokens follow the last block or there is no block. -/
theorem splitBlocks_written_append_eq_error {ended : List EndedBlock} {trailing : List Token}
    {fault : Fault} (wellFormed : ∀ block ∈ ended, block.WellFormed)
    (unended : ∀ token ∈ trailing, token.is .endchannel = false) :
    splitBlocks (ended.flatMap EndedBlock.written ++ trailing) = .error fault ↔
      (∃ earlier block later, ended = earlier ++ block :: later ∧
        (∀ other ∈ earlier, ∃ read, Block.ofTokens other.tokens = .ok read) ∧
        Block.ofTokens block.tokens = .error fault) ∨
      (∀ block ∈ ended, ∃ read, Block.ofTokens block.tokens = .ok read) ∧
        ((∃ token others, trailing = token :: others ∧
          fault = .malformed token.line .trailingContent) ∨
        ended = [] ∧ trailing = [] ∧ fault = .malformed 2 .noChannels) := by
  rw [splitBlocks_written_append wellFormed unended, List.mapM_map, bind_eq_error]
  refine or_congr ?_ ?_
  · rw [mapM_eq_error]
    constructor
    · intro failed
      rcases failed with ⟨earlier, block, later, results, whole, read, failed⟩
      exact ⟨earlier, block, later, whole, exists_mapM_eq_ok.1 ⟨results, read⟩, failed⟩
    · intro failed
      rcases failed with ⟨earlier, block, later, whole, readable, failed⟩
      rcases exists_mapM_eq_ok.2 readable with ⟨results, read⟩
      exact ⟨earlier, block, later, results, whole, read, failed⟩
  · constructor
    · intro failed
      rcases failed with ⟨blocks, read, failed⟩
      refine ⟨exists_mapM_eq_ok.1 ⟨blocks, read⟩, ?_⟩
      cases trailing with
      | cons token others =>
          cases failed
          exact .inl ⟨token, others, rfl, rfl⟩
      | nil =>
          cases mapM_eq_ok.1 read with
          | nil =>
              cases failed
              exact .inr ⟨rfl, rfl, rfl⟩
          | cons first others => cases failed
    · intro refused
      rcases refused with ⟨readable, ⟨token, others, rfl, rfl⟩ | ⟨rfl, rfl, rfl⟩⟩
      · rcases exists_mapM_eq_ok.2 readable with ⟨blocks, read⟩
        exact ⟨blocks, read, rfl⟩
      · exact ⟨[], rfl, rfl⟩

end ScoreSynth.Score
