import Mathlib.Data.List.DropRight
import ScoreSynth.Proofs.Token.Layout

/-!
# Scanning line by line

A document is scanned in one pass that counts its lines and the blank lines since the last
line that was not blank.  The tokens can also be told without any counting: each line has
its words, and only the lines directly above it matter, as far as they are blank
(`Token.ofDocument`).  The main result, `Token.scan_lineByLine`, says that the scan finds
these tokens in every document whose first two lines are as they should be.  There is then
at least one token, so that a scan need not be checked for having any.
-/

namespace ScoreSynth

namespace Document

/-- Whether the first line, or the empty text if there is no line, is a header behind any
number of byte order marks. -/
def Headed (lines : List (List Char)) : Prop :=
  header <+: (lines.headD []).dropWhile (· = byteOrderMark)

/-- Whether there is a second line, and it begins with the word that opens the global
settings. -/
def Opened (lines : List (List Char)) : Prop :=
  ∃ second, lines[1]? = some second ∧ Keyword.globalconfig.text <+: second

theorem not_isBlankLine_of_isHeader {line : List Char} (headed : isHeader line = true) :
    Text.isBlankLine line = false := by
  have begins := (List.isPrefixOf_iff_prefix.1 headed).subset
  have printed : '#' ∈ line := (List.dropWhile_sublist _).subset (begins (by decide))
  exact List.all_eq_false.2 ⟨'#', printed, by decide⟩

end Document

namespace Token

/-- The number of blank lines directly above a place, given all lines above it. -/
def blanksAbove (above : List (List Char)) : Nat :=
  (above.rtakeWhile Text.isBlankLine).length

/-- The tokens of a document, line by line from the second line on.  The words of a line
are those before its first semicolon.  All of them are on that line, and the first one is
below the blank lines directly above the line. -/
def ofDocument (lines : List (List Char)) : List Token :=
  ((lines.zipIdx 1).drop 1).flatMap fun (line, number) =>
    ofWords number (blanksAbove (lines.take (number - 1)))
      (Text.words (Text.withoutComment line))

theorem ofLine_eq_ofWords (number blankLines : Nat) (line : List Char) :
    ofLine number blankLines line =
      ofWords number blankLines (Text.words (Text.withoutComment line)) := by
  rw [ofLine]
  cases Text.words (Text.withoutComment line) <;> rfl

/-- What has been counted when a line is reached is what stands above it. -/
theorem ofLines_eq_flatMap (above lines : List (List Char)) :
    ofLines (above.length + 1) (blanksAbove above) lines =
      (lines.zipIdx (above.length + 1)).flatMap fun (line, number) =>
        ofWords number (blanksAbove ((above ++ lines).take (number - 1)))
          (Text.words (Text.withoutComment line)) := by
  induction lines generalizing above with
  | nil => rfl
  | cons line others ih =>
      have next := ih (above ++ [line])
      rw [List.length_append, List.length_singleton, List.append_assoc,
        List.singleton_append] at next
      rw [List.zipIdx_cons, List.flatMap_cons, ← next]
      dsimp only
      rw [Nat.add_sub_cancel, List.take_left, ofLines]
      split
      · next blank =>
          rw [Text.words_of_isBlankLine blank, blanksAbove, blanksAbove,
            List.rtakeWhile_concat_pos _ _ _ blank, List.length_append]
          rfl
      · next printed =>
          rw [ofLine_eq_ofWords, blanksAbove, blanksAbove,
            List.rtakeWhile_concat_neg _ _ _ printed]
          rfl

/-- Behind a header the count begins with nothing, as the header is not blank. -/
theorem ofLines_eq_ofDocument {first : List Char} (headed : Document.isHeader first = true)
    (others : List (List Char)) : ofLines 2 0 others = ofDocument (first :: others) := by
  have none : blanksAbove [first] = 0 := by
    have printed := Document.not_isBlankLine_of_isHeader headed
    rw [blanksAbove, ← List.nil_append [first],
      List.rtakeWhile_concat_neg _ _ _ (Bool.eq_false_iff.1 printed)]
    rfl
  have counted := ofLines_eq_flatMap [first] others
  rw [none] at counted
  exact counted

theorem scan_cases (source : List Char) :
    (¬ Document.Headed (Text.lines source) ∧ scan source = .error (.malformed 1 .noHeader)) ∨
    (Document.Headed (Text.lines source) ∧ ¬ Document.Opened (Text.lines source) ∧
      scan source = .error (.malformed 2 .noGlobalLine)) ∨
    (Document.Headed (Text.lines source) ∧ Document.Opened (Text.lines source) ∧
      scan source = .ok (ofDocument (Text.lines source))) := by
  rw [scan]
  cases Text.lines source with
  | nil => exact .inl ⟨fun headed => absurd (List.prefix_nil.1 headed) (by decide), rfl⟩
  | cons first others =>
      by_cases headed : Document.isHeader first = true
      · have isHeaded : Document.Headed (first :: others) := List.isPrefixOf_iff_prefix.1 headed
        right
        cases others with
        | nil =>
            refine .inl ⟨isHeaded, fun opened => ?_, by simp [headed]⟩
            rcases opened with ⟨second, missing, _⟩
            cases missing
        | cons second below =>
            by_cases opens : Document.opensGlobal second = true
            · refine .inr ⟨isHeaded, ⟨second, rfl, List.isPrefixOf_iff_prefix.1 opens⟩, ?_⟩
              simp only [headed, opens, Bool.not_true, Bool.false_eq_true, if_false,
                ofLines_eq_ofDocument headed]
            · refine .inl ⟨isHeaded, fun opened => opens ?_, by simp [headed, opens]⟩
              rcases opened with ⟨_, here, begins⟩
              cases here
              exact List.isPrefixOf_iff_prefix.2 begins
      · refine .inl ⟨fun isHeaded => headed (List.isPrefixOf_iff_prefix.2 isHeaded), ?_⟩
        simp [headed]

/-- Scan a document, and refuse it if it has no tokens. -/
def scanSome (source : List Char) : Except Fault (List Token) := do
  let tokens ← scan source
  if tokens.isEmpty then throw (.malformed 2 .noGlobalLine)
  return tokens

/-- No document is refused for having no tokens, because its second line has a word. -/
theorem scanSome_eq_scan (source : List Char) : scanSome source = scan source := by
  rw [scanSome]
  cases scanned : scan source with
  | error fault => rfl
  | ok tokens =>
      cases tokens with
      | nil => exact (wellPlaced_of_scan scanned).elim
      | cons first others => rfl

/-- A document is refused at its first line exactly if that is no header, and otherwise at
its second line exactly if that is missing or does not open the global settings.  Otherwise
its tokens are found line by line, and there is at least one. -/
theorem scan_lineByLine (source : List Char) :
    (scan source = .error (.malformed 1 .noHeader) ↔ ¬ Document.Headed (Text.lines source)) ∧
    (scan source = .error (.malformed 2 .noGlobalLine) ↔
      Document.Headed (Text.lines source) ∧ ¬ Document.Opened (Text.lines source)) ∧
    (∀ tokens, scan source = .ok tokens ↔
      Document.Headed (Text.lines source) ∧ Document.Opened (Text.lines source) ∧
        tokens = ofDocument (Text.lines source)) ∧
    scanSome source = scan source := by
  rw [scanSome_eq_scan]
  rcases scan_cases source with
    ⟨unheaded, result⟩ | ⟨headed, unopened, result⟩ | ⟨headed, opened, result⟩
  · simp [result, unheaded]
  · simp [result, headed, unopened]
  · simp [result, headed, opened, eq_comm]

/-- A comment ends a run of blank lines, whatever blanks these hold. -/
example : ofDocument ["#META".toList, "globalconfig".toList, [], [';'], [' '], ['\t'],
    "A4,1 B4,1 ; C4,1".toList] =
      [⟨"globalconfig".toList, 2, 0⟩, ⟨"A4,1".toList, 7, 2⟩, ⟨"B4,1".toList, 7, 0⟩] := by
  decide +kernel

end Token

end ScoreSynth
