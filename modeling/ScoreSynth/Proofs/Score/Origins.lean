import ScoreSynth.Proofs.Note
import ScoreSynth.Proofs.Score.Blocks
import ScoreSynth.Proofs.Score.Global
import ScoreSynth.Proofs.Score.Loops
import ScoreSynth.Settings
import ScoreSynth.Token.Scan

/-!
# Where tokens and faults come from

Places are given to tokens once, when a document is scanned.  No pass after that invents
a token: loops copy tokens, and blocks are cut out of what is there.  So a fault that
names a place, whichever pass reports it, is true of a token of the document
(`Fault.Truthful`).  This is shown here pass by pass, up to the single notes.
-/

namespace ScoreSynth

open Stepwise

/-- Whether a fault is a report that is true of some tokens: where it names a line, a
token on that line is as the fault says.  A defect of the layout may also name one of
the first two lines, which need not hold a token. -/
def Fault.Truthful (tokens : List Token) : Fault → Prop
  | .malformed line _ => line = 1 ∨ line = 2 ∨ ∃ token ∈ tokens, token.line = line
  | .nestedLoop line => ∃ token ∈ tokens, token.line = line ∧ token.is .loop = true
  | .badCount line _ | .durationOverflow line => ∃ token ∈ tokens, token.line = line
  | .unknownPitch line name => ∃ token ∈ tokens, token.line = line ∧
      ',' ∉ name ∧ name ∉ Pitch.names ∧ ∃ rest, token.text = name ++ ',' :: rest
  | .malformedNote line text => ∃ token ∈ tokens, token.line = line ∧ token.text = text
  | .misaligned line blankLines => ∃ token ∈ tokens, token.line = line ∧
      token.blankLines = blankLines ∧ 1 < blankLines
  | .sumOverflow .. => False
  | .badField .. | .transposedDrum | .unplayable .. | .outOfRange .. | .tooLong ..
  | .sinkUnavailable _ => True

namespace Fault

variable {tokens others : List Token} {fault : Fault}

theorem Truthful.reported (truthful : fault.Truthful tokens) : fault.breaks = false := by
  cases fault with
  | sumOverflow => cases truthful
  | _ => rfl

theorem exists_mem_mono {property : Token → Prop} (subset : tokens ⊆ others)
    (found : ∃ token ∈ tokens, property token) : ∃ token ∈ others, property token := by
  rcases found with ⟨token, member, holds⟩
  exact ⟨token, subset member, holds⟩

/-- What is true of some tokens is true among more of them. -/
theorem Truthful.mono (subset : tokens ⊆ others) (truthful : fault.Truthful tokens) :
    fault.Truthful others := by
  cases fault with
  | malformed => exact truthful.imp_right (Or.imp_right (exists_mem_mono subset))
  | nestedLoop | badCount | durationOverflow | unknownPitch | malformedNote | misaligned =>
      exact exists_mem_mono subset truthful
  | sumOverflow => cases truthful
  | badField | transposedDrum | unplayable | outOfRange | tooLong | sinkUnavailable => trivial

end Fault

theorem truthful_mono {α : Type} {work : Except Fault α} {tokens others : List Token}
    (subset : tokens ⊆ others) (narrow : FailsOnly (Fault.Truthful tokens) work) :
    FailsOnly (Fault.Truthful others) work :=
  failsOnly_mono (fun _ truthful => truthful.mono subset) narrow

/-! ## Scanning and the global settings -/

/-- A document that cannot be scanned has a defect on one of its first two lines. -/
theorem Token.truthful_scan (source : List Char) :
    FailsOnly (Fault.Truthful []) (Token.scan source) := by
  rw [scan]
  split
  · exact failsOnly_error (.inl rfl)
  apply failsOnly_ite
  · exact failsOnly_error (.inl rfl)
  split
  · exact failsOnly_error (.inr (.inl rfl))
  apply failsOnly_ite
  · exact failsOnly_error (.inr (.inl rfl))
  · exact failsOnly_ok _

namespace Score

/-- A defect may be blamed on any token that is there. -/
theorem truthful_malformed {tokens : List Token} {token : Token} (defect : Defect)
    (member : token ∈ tokens) : (Fault.malformed token.line defect).Truthful tokens :=
  .inr (.inr ⟨token, member, rfl⟩)

theorem truthful_tempoOfToken (token : Token) :
    FailsOnly (Fault.Truthful [token]) (tempoOfToken token) := by
  rw [tempoOfToken]
  split
  · exact failsOnly_ok _
  · exact failsOnly_error (truthful_malformed _ List.mem_cons_self)

theorem truthful_readGlobals (last : Option Tempo) (tokens : List Token) :
    FailsOnly (Fault.Truthful tokens) (readGlobals last tokens) := by
  fun_induction readGlobals last tokens with
  | case1 last => exact failsOnly_ok last
  | case2 last name others unknown =>
      exact failsOnly_error (truthful_malformed _ List.mem_cons_self)
  | case3 last name known =>
      exact failsOnly_error (truthful_malformed _ List.mem_cons_self)
  | case4 last name known value others ih =>
      apply failsOnly_bind
      · exact truthful_mono (by simp) (truthful_tempoOfToken value)
      · exact fun tempo => truthful_mono (by simp) (ih tempo)

theorem truthful_takeGlobals (tokens : List Token) :
    FailsOnly (Fault.Truthful tokens) (takeGlobals tokens) := by
  cases tokens with
  | nil => exact failsOnly_error (.inr (.inl rfl))
  | cons first others =>
      have blamed (defect : Defect) :
          (Fault.malformed first.line defect).Truthful (first :: others) :=
        truthful_malformed defect List.mem_cons_self
      rw [takeGlobals]
      apply failsOnly_ite
      · exact failsOnly_error (blamed _)
      split
      · exact failsOnly_error (blamed _)
      apply failsOnly_bind
      · refine truthful_mono (List.subset_cons_of_subset first ?_) (truthful_readGlobals none _)
        exact (List.takeWhile_prefix _).subset
      intro last
      cases last with
      | none => exact failsOnly_error (blamed _)
      | some tempo => exact failsOnly_ok _

/-- The tokens behind the global settings are tokens of the document. -/
theorem subset_of_takeGlobals {tokens body : List Token} {tempo : Tempo}
    (taken : takeGlobals tokens = .ok (tempo, body)) : body ⊆ tokens := by
  rcases takeGlobals_eq_ok.1 taken with ⟨opening, inside, closing, rfl, _⟩
  intro token member
  simp [member]

/-! ## Loops -/

theorem truthful_unroll (opening : Token) (inside : List Token) :
    FailsOnly (Fault.Truthful (opening :: inside)) (unroll opening inside) := by
  cases inside with
  | nil => exact failsOnly_error ⟨opening, List.mem_cons_self, rfl⟩
  | cons count body =>
      have blamed (defect : CountDefect) :
          (Fault.badCount count.line defect).Truthful (opening :: count :: body) :=
        ⟨count, by simp, rfl⟩
      rw [unroll]
      split
      · exact failsOnly_error (blamed _)
      apply failsOnly_ite
      · exact failsOnly_error (blamed _)
      · exact failsOnly_ok _

theorem truthful_unrollRuns (runs : List (Token × List Token)) :
    FailsOnly (Fault.Truthful (runs.flatMap fun (mark, run) => mark :: run))
      (unrollRuns runs) := by
  fun_induction unrollRuns runs with
  | case1 => exact failsOnly_ok []
  | case2 mark inside others stray =>
      exact failsOnly_error (truthful_malformed _ (by simp))
  | case3 mark inside opens =>
      exact failsOnly_error (truthful_malformed _ (by simp))
  | case4 mark inside opens next outside others nested =>
      exact failsOnly_error ⟨next, by simp, rfl, nested⟩
  | case5 mark inside opens next outside others closes ih =>
      apply failsOnly_bind
      · exact truthful_mono (by simp) (truthful_unroll mark inside)
      intro unrolled
      apply failsOnly_bind
      · refine truthful_mono ?_ ih
        intro token member
        simp only [List.flatMap_cons, List.cons_append, List.mem_cons, List.mem_append]
        exact .inr (.inr (.inr (.inr member)))
      · exact fun following => failsOnly_ok _

theorem truthful_expandLoops (tokens : List Token) :
    FailsOnly (Fault.Truthful tokens) (expandLoops tokens) := by
  have whole := Runs.toList_cut isLoopMark tokens
  apply failsOnly_bind
  · refine truthful_mono ?_ (truthful_unrollRuns _)
    intro token member
    rw [← whole]
    exact List.mem_append_right _ member
  · exact fun following => failsOnly_ok _

theorem Piece.expanded_subset (piece : Piece) : piece.expanded ⊆ piece.tokens := by
  cases piece with
  | word token => exact List.Subset.refl _
  | loop opening count body closing =>
      intro token member
      have inside := copies_subset _ _ member
      simp [tokens, inside]

/-- Expanding loops copies tokens, and makes no new ones. -/
theorem subset_of_expandLoops {tokens expanded : List Token}
    (expand : expandLoops tokens = .ok expanded) : expanded ⊆ tokens := by
  rcases expandLoops_eq_ok.1 expand with ⟨pieces, _, rfl, rfl⟩
  intro token member
  rcases List.mem_flatMap.1 member with ⟨piece, among, inside⟩
  exact List.mem_flatMap.2 ⟨piece, among, piece.expanded_subset inside⟩

/-! ## Blocks -/

namespace Block

theorem withoutMarker_subset (tokens : List Token) : withoutMarker tokens ⊆ tokens :=
  (withoutMarker_sublist tokens).subset

theorem truthful_checkGaps (tokens : List Token) :
    FailsOnly (Fault.Truthful tokens) (checkGaps tokens) := by
  rw [checkGaps]
  split
  · exact failsOnly_ok ()
  · next token found =>
      have large : largestGap < token.blankLines := by simpa using List.find?_some found
      have member := List.mem_of_mem_tail (List.mem_of_find?_eq_some found)
      exact failsOnly_error ⟨token, member, rfl, rfl, large⟩

theorem truthful_separate (tokens : List Token) :
    FailsOnly (Fault.Truthful tokens) (separate tokens) := by
  rw [separate]
  split
  · exact failsOnly_ok _
  next opening others found =>
  split
  · refine failsOnly_error (truthful_malformed _ ?_)
    rw [(Runs.eq_append_cons_of_dropWhile found).1]
    simp
  · exact failsOnly_ok _

theorem truthful_ofTokens (tokens : List Token) :
    FailsOnly (Fault.Truthful tokens) (Block.ofTokens tokens) := by
  have subset := withoutMarker_subset tokens
  apply failsOnly_bind
  · exact truthful_mono subset (truthful_checkGaps _)
  · exact fun checked => truthful_mono subset (truthful_separate _)

/-- A block holds tokens that it is made from. -/
theorem notes_subset_of_ofTokens {tokens : List Token} {block : Block}
    (made : ofTokens tokens = .ok block) : block.notes ⊆ tokens := by
  have subset := withoutMarker_subset tokens
  refine List.Subset.trans ?_ subset
  rcases separate_eq_ok.1 (ofTokens_eq_ok.1 made).2 with ⟨_, rfl⟩ |
    ⟨before, opening, settings, closing, after, whole, _, _, _, _, rfl⟩
  · exact List.Subset.refl _
  · rw [whole]
    intro token member
    cases List.mem_append.1 member with
    | inl early => simp [early]
    | inr late => simp [late]

end Block

theorem subset_flatMap_written {ended : List EndedBlock} {block : EndedBlock}
    (member : block ∈ ended) : block.tokens ⊆ ended.flatMap EndedBlock.written := by
  intro token inside
  exact List.mem_flatMap.2 ⟨block, member, List.mem_append_left _ inside⟩

theorem truthful_splitBlocks (tokens : List Token) :
    FailsOnly (Fault.Truthful tokens) (splitBlocks tokens) := by
  rcases exists_ended tokens with ⟨ended, trailing, wellFormed, unended, rfl⟩
  rw [splitBlocks_written_append wellFormed unended]
  apply failsOnly_bind
  · apply failsOnly_mapM
    intro inside member
    rcases List.mem_map.1 member with ⟨block, among, rfl⟩
    have subset := subset_flatMap_written among
    exact truthful_mono (List.subset_append_of_subset_left trailing subset)
      (Block.truthful_ofTokens block.tokens)
  intro blocks
  cases trailing with
  | cons token others => exact failsOnly_error (truthful_malformed _ (by simp))
  | nil =>
      apply failsOnly_ite
      · exact failsOnly_error (.inr (.inl rfl))
      · exact failsOnly_ok blocks

theorem notes_subset_of_splitBlocks {tokens : List Token} {blocks : List Block}
    (split : splitBlocks tokens = .ok blocks) {block : Block} (member : block ∈ blocks) :
    block.notes ⊆ tokens := by
  rcases splitBlocks_eq_ok.1 split with ⟨ended, _, _, rfl, related⟩
  have read := mapM_eq_ok.2 related
  rcases exists_mem_of_mapM_eq_ok read member with ⟨source, among, made⟩
  exact List.Subset.trans (Block.notes_subset_of_ofTokens made) (subset_flatMap_written among)

end Score

/-! ## Settings and notes -/

theorem Settings.truthful_require {α : Type} (field : Field) (read : List Char → Option α)
    (text : List Char) (tokens : List Token) :
    FailsOnly (Fault.Truthful tokens) (require field read text) := by
  rw [require]
  split
  · exact failsOnly_ok _
  · exact failsOnly_error trivial

/-- Settings that cannot be read are blamed on a field, and not on a line. -/
theorem Settings.truthful_ofWords (words : List (List Char)) (tokens : List Token) :
    FailsOnly (Fault.Truthful tokens) (Settings.ofWords words) := by
  apply failsOnly_bind
  · exact truthful_require _ _ _ tokens
  intro percent
  apply failsOnly_bind
  · exact truthful_require _ _ _ tokens
  intro transposition
  apply failsOnly_bind
  · exact truthful_require _ _ _ tokens
  intro rate
  apply failsOnly_bind
  · exact truthful_require _ _ _ tokens
  intro instrument
  apply failsOnly_ite
  · exact failsOnly_error trivial
  · exact failsOnly_ok _

/-- A token that is no note is blamed as it is written. -/
theorem Note.truthful_ofToken (multiplier : Float) (token : Token) :
    FailsOnly (Fault.Truthful [token]) (Note.ofToken multiplier token) := by
  have itself : (Fault.malformedNote token.line token.text).Truthful [token] :=
    ⟨token, List.mem_cons_self, rfl, rfl⟩
  rw [ofToken]
  split
  · exact failsOnly_error itself
  next name rest divided =>
  rcases parts?_eq_some_iff.1 divided with ⟨whole, unlike⟩
  split
  · next unknown =>
      have unlisted : name ∉ Pitch.names :=
        List.idxOf?_eq_none_iff.1 (Option.map_eq_none_iff.1 unknown)
      exact failsOnly_error ⟨token, List.mem_cons_self, rfl, unlike, unlisted, rest, whole⟩
  split
  · exact failsOnly_error itself
  · exact failsOnly_ok _

end ScoreSynth
