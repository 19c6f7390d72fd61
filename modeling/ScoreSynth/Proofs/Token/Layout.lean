import Mathlib.Data.List.SplitBy
import ScoreSynth.Proofs.Text.Reading
import ScoreSynth.Proofs.Token.Reading
import ScoreSynth.Token.Layout

/-!
# Tokens that are laid out

Every scan is well placed: its texts are words, its lines never go back, and the gap
above a line does not reach beyond the line of the token before.  Nothing else is needed
of a list of tokens for it to be a scan, because the document that `layOut` makes of a
well placed list is scanned as that list (`scan_layOut`).
-/

namespace ScoreSynth.Token

/-! ## Scans are well placed -/

/-- Tokens of a line that has begun follow each other without gaps, and what is well
placed behind some token of the line is well placed behind all of them. -/
theorem wellPlacedAfter_onLine_append (before : Token) (words : List (List Char))
    {later : List Token}
    (placed : ∀ last : Token, last.line = before.line → WellPlacedAfter last later) :
    WellPlacedAfter before (words.map (onLine before.line) ++ later) := by
  induction words generalizing before with
  | nil => exact placed before rfl
  | cons word others ih => exact ⟨.inl ⟨rfl, rfl⟩, ih (onLine before.line word) placed⟩

/-- Consecutive lines give well placed tokens behind every token that stands above them
and above the gap that they begin with. -/
theorem wellPlacedAfter_ofLines {before : Token} {number blankLines : Nat}
    (above : before.line + blankLines < number) (lines : List (List Char)) :
    WellPlacedAfter before (ofLines number blankLines lines) := by
  induction lines generalizing before number blankLines with
  | nil => trivial
  | cons line others ih =>
      rw [ofLines]
      split
      · exact ih (by omega)
      rw [ofLine]
      split
      · exact ih (by omega)
      next first words _ =>
      refine ⟨.inr above, ?_⟩
      exact wellPlacedAfter_onLine_append ⟨first, number, blankLines⟩ words
        fun last same => ih (by rw [same]; exact Nat.lt_succ_self number)

theorem isWord_text_of_mem_ofLine {number blankLines : Nat} {line : List Char} {token : Token}
    (member : token ∈ ofLine number blankLines line) : Text.IsWord token.text := by
  rw [ofLine] at member
  split at member
  · cases member
  next first others words =>
  have good : ∀ word ∈ first :: others, Text.IsWord word := fun word among =>
    Text.isWord_of_mem_words (by rwa [words])
  rcases List.forall_mem_cons.1 good with ⟨firstGood, othersGood⟩
  cases member with
  | head => exact firstGood
  | tail _ later =>
      rcases List.mem_map.1 later with ⟨word, among, rfl⟩
      exact othersGood word among

theorem isWord_text_of_mem_ofLines {number blankLines : Nat} {lines : List (List Char)}
    {token : Token} (member : token ∈ ofLines number blankLines lines) :
    Text.IsWord token.text := by
  induction lines generalizing number blankLines with
  | nil => cases member
  | cons line others ih =>
      rw [ofLines] at member
      split at member
      · exact ih member
      · cases List.mem_append.1 member with
        | inl here => exact isWord_text_of_mem_ofLine here
        | inr later => exact ih later

theorem wellPlaced_of_scan {source : List Char} {tokens : List Token}
    (scanned : scan source = .ok tokens) : WellPlaced tokens := by
  rcases scan_eq_ok.1 scanned with ⟨first, second, others, _, _, opens, rfl⟩
  rcases List.isPrefixOf_iff_prefix.1 opens with ⟨rest, rfl⟩
  have reserved : Text.IsWord Keyword.globalconfig.text := by decide
  rcases Text.exists_words_of_isWord_append reserved rest with ⟨more, words, read⟩
  have printed : Text.isBlankLine (Keyword.globalconfig.text ++ rest) = false := rfl
  have goods : ∀ token ∈ ofLines 2 0 ((Keyword.globalconfig.text ++ rest) :: others),
      Text.IsWord token.text := fun token member => isWord_text_of_mem_ofLines member
  rw [ofLines, printed, if_neg Bool.false_ne_true, ofLine, read] at goods ⊢
  refine ⟨goods, rfl, rfl, ?_, ?_⟩
  · exact List.isPrefixOf_iff_prefix.2 (List.prefix_append _ more)
  · refine wellPlacedAfter_onLine_append _ words fun last same => ?_
    exact wellPlacedAfter_ofLines (by rw [same]; exact Nat.lt_succ_self 2) others

/-! ## Well placed tokens are scans -/

/-- Whether two tokens are on one line. -/
def onOneLine (before token : Token) : Bool :=
  before.line == token.line

/-- Whether tokens are grouped by their lines, below a given line: the lines go down, each
far enough for the gap above it. -/
def Grouped (last : Nat) : List (List Token) → Prop
  | [] => True
  | [] :: _ => False
  | (first :: same) :: others =>
      last + first.blankLines < first.line ∧
        (∀ token ∈ same, token.line = first.line ∧ token.blankLines = 0) ∧
        Grouped first.line others

/-- An element that goes with the next one is put into its group. -/
theorem splitBy_cons_cons {α : Type} {together : α → α → Bool} {first second : α}
    {others group : List α} {groups : List (List α)}
    (related : together first second = true)
    (grouped : (second :: others).splitBy together = (second :: group) :: groups) :
    (first :: second :: others).splitBy together = (first :: second :: group) :: groups := by
  rcases List.splitBy_eq_iff.1 grouped with ⟨whole, nonempty, inside, between⟩
  refine List.splitBy_eq_iff.2 ⟨?_, ?_, ?_, ?_⟩
  · rw [whole]
    rfl
  · simpa using nonempty
  · refine List.forall_mem_cons.2 ⟨?_, fun m member => inside m (List.mem_cons_of_mem _ member)⟩
    exact .cons_cons related (inside _ List.mem_cons_self)
  · cases between with
    | singleton => exact .singleton _
    | cons_cons apart later => exact .cons_cons (by simpa using apart) later

/-- Well placed tokens are grouped by their lines. -/
theorem exists_grouped {first : Token} {others : List Token}
    (placed : WellPlacedAfter first others) :
    ∃ same groups, (first :: others).splitBy onOneLine = (first :: same) :: groups ∧
      (∀ token ∈ same, token.line = first.line ∧ token.blankLines = 0) ∧
      Grouped first.line groups := by
  induction others generalizing first with
  | nil => exact ⟨[], [], rfl, List.forall_mem_nil _, trivial⟩
  | cons second others ih =>
      rcases placed with ⟨follows, later⟩
      rcases ih later with ⟨same, groups, grouped, together, below⟩
      by_cases joined : first.line = second.line
      · have gapless : second.blankLines = 0 := by
          rcases follows with ⟨_, gapless⟩ | further
          · exact gapless
          · omega
        refine ⟨second :: same, groups, ?_, ?_, by rwa [joined]⟩
        · exact splitBy_cons_cons (by simp [onOneLine, joined]) grouped
        · exact List.forall_mem_cons.2 ⟨⟨joined.symm, gapless⟩, by rwa [joined]⟩
      · have further : first.line + second.blankLines < second.line := by
          rcases follows with ⟨equal, _⟩ | further
          · exact absurd equal.symm joined
          · exact further
        refine ⟨[], (second :: same) :: groups, ?_, List.forall_mem_nil _, further, together, below⟩
        rw [← grouped]
        exact List.splitBy_append_cons (l := [first]) others (by simp [onOneLine, joined])

theorem ofLines_replicate_comment (number count : Nat) (others : List (List Char)) :
    ofLines number 0 (List.replicate count [';'] ++ others) =
      ofLines (number + count) 0 others := by
  induction count generalizing number with
  | zero => rfl
  | succ count ih =>
      have comment : ofLines number 0 ([';'] :: (List.replicate count [';'] ++ others)) =
          ofLines (number + 1) 0 (List.replicate count [';'] ++ others) := rfl
      rw [List.replicate_succ, List.cons_append, comment, ih]
      congr 1
      omega

theorem ofLines_replicate_nil (number blankLines count : Nat) (others : List (List Char)) :
    ofLines number blankLines (List.replicate count [] ++ others) =
      ofLines (number + count) (blankLines + count) others := by
  induction count generalizing number blankLines with
  | zero => rfl
  | succ count ih =>
      rw [List.replicate_succ, List.cons_append, ofLines_nil_cons, ih]
      congr 1 <;> omega

/-- The tokens of a line are put together from their texts. -/
theorem ofWords_map_text {first : Token} {same : List Token}
    (together : ∀ token ∈ same, token.line = first.line ∧ token.blankLines = 0) :
    ofWords first.line first.blankLines ((first :: same).map (·.text)) = first :: same := by
  have kept : (same.map (·.text)).map (onLine first.line) = same.map id := by
    rw [List.map_map]
    refine List.map_congr_left fun token member => ?_
    rcases token with ⟨text, line, blankLines⟩
    rcases together _ member with ⟨rfl, rfl⟩
    rfl
  rw [List.map_cons, ofWords, kept, List.map_id]

/-- The lines that are made of grouped tokens are scanned as these tokens. -/
theorem ofLines_layOutLines {last : Nat} {groups : List (List Token)}
    (grouped : Grouped last groups)
    (good : ∀ token ∈ groups.flatten, Text.IsWord token.text) :
    ofLines (last + 1) 0 (layOutLines last groups) = groups.flatten := by
  fun_induction layOutLines last groups with
  | case1 => rfl
  | case2 => exact grouped.elim
  | case3 last first same others ih =>
      rcases grouped with ⟨further, together, below⟩
      rw [List.flatten_cons] at good ⊢
      rcases List.forall_mem_append.1 good with ⟨here, later⟩
      have words : ∀ word ∈ (first :: same).map (·.text), Text.IsWord word := by
        simpa using here
      have reached : last + 1 + (first.line - 1 - last - first.blankLines) +
          first.blankLines = first.line := by omega
      rw [List.append_assoc, ofLines_replicate_comment, ofLines_replicate_nil, reached,
        Nat.zero_add, ofLines_joinWords_cons (by simp) words, ofWords_map_text together,
        ih below later]

theorem isLine_of_mem_layOutLines {last : Nat} {groups : List (List Token)}
    (good : ∀ token ∈ groups.flatten, Text.IsWord token.text) {line : List Char}
    (member : line ∈ layOutLines last groups) : Text.IsLine line := by
  fun_induction layOutLines last groups with
  | case1 => cases member
  | case2 last others ih => exact ih good member
  | case3 last first same others ih =>
      rw [List.flatten_cons] at good
      rcases List.forall_mem_append.1 good with ⟨here, later⟩
      rcases List.mem_append.1 member with upper | lower
      · rcases List.mem_append.1 upper with comment | empty
        · rw [List.eq_of_mem_replicate comment]
          decide
        · rw [List.eq_of_mem_replicate empty]
          decide
      · cases lower with
        | head => exact Text.isLine_joinWords (by simpa using here)
        | tail _ among => exact ih later among

/-- A well placed list begins on the second line, with the word that opens the global
settings, so no line is laid out above that one. -/
theorem scan_layOut_of_wellPlaced {tokens : List Token} (placed : WellPlaced tokens) :
    scan (layOut tokens) = .ok tokens := by
  cases tokens with
  | nil => exact placed.elim
  | cons first others =>
      rcases placed with ⟨good, second, gapless, opens, later⟩
      rcases exists_grouped later with ⟨same, groups, grouped, together, below⟩
      have whole : ((first :: same) :: groups).flatten = first :: others := by
        rw [← grouped, List.flatten_splitBy]
      have wordsOf : ∀ token ∈ ((first :: same) :: groups).flatten, Text.IsWord token.text := by
        rwa [whole]
      have lines : layOutLines 1 ((first :: same) :: groups) =
          Text.joinWords ((first :: same).map (·.text)) :: layOutLines 2 groups := by
        rw [layOutLines, second, gapless]
        rfl
      have opened : Document.opensGlobal (Text.joinWords ((first :: same).map (·.text))) =
          true := by
        rcases Text.exists_joinWords_cons first.text (same.map (·.text)) with ⟨rest, equal⟩
        rcases List.isPrefixOf_iff_prefix.1 opens with ⟨more, longer⟩
        rw [List.map_cons, equal, ← longer, List.append_assoc]
        exact List.isPrefixOf_iff_prefix.2 (List.prefix_append _ _)
      have split : (first :: others).splitBy (fun before token => before.line == token.line) =
          (first :: same) :: groups := grouped
      have read : ofLines 2 0 (layOutLines 1 ((first :: same) :: groups)) = first :: others := by
        rw [← whole]
        exact ofLines_layOutLines ⟨by omega, together, below⟩ wordsOf
      have plain : ∀ line ∈ layOutLines 1 ((first :: same) :: groups), Text.IsLine line :=
        fun line member => isLine_of_mem_layOutLines wordsOf member
      rw [lines] at read plain
      rw [layOut, split, lines, scan_joinLines plain opened, read]

/-- The scans are the well placed lists, and laying out is an inverse of scanning. -/
theorem scan_layOut (tokens : List Token) :
    ((∃ source, scan source = .ok tokens) ↔ WellPlaced tokens) ∧
      (WellPlaced tokens → scan (layOut tokens) = .ok tokens) := by
  refine ⟨⟨?_, fun placed => ⟨layOut tokens, scan_layOut_of_wellPlaced placed⟩⟩,
    scan_layOut_of_wellPlaced⟩
  intro scanned
  rcases scanned with ⟨source, scanned⟩
  exact wellPlaced_of_scan scanned

/-- Tokens with every kind of place: behind another one on its line, below a line without
tokens, and below empty lines. -/
def scattered : List Token :=
  [⟨"globalconfig".toList, 2, 0⟩, ⟨"tempo".toList, 2, 0⟩, ⟨"100%".toList, 4, 0⟩,
    ⟨"endglobalconfig".toList, 8, 2⟩, ⟨"é".toList, 8, 0⟩]

example : layOut scattered =
    "#META filetype nsmf\nglobalconfig tempo\n;\n100%\n;\n\n\nendglobalconfig é\n".toList := by
  decide

theorem scan_layOut_scattered :
    WellPlaced scattered ∧ scan (layOut scattered) = .ok scattered :=
  ⟨by decide, (scan_layOut scattered).2 (by decide)⟩

end ScoreSynth.Token
