import ScoreSynth.Proofs.Text.Joining
import ScoreSynth.Token.Scan

/-!
# Scanning lines of words

A document that is given as lines of words is scanned line by line: the tokens of a
line are its words, all of them at the line's number, and a line without words is
counted for the first word of the next line that has one.  Every token of a document
is therefore on one of its lines, and not on the first one (`line_mem_of_scan`).
-/

namespace ScoreSynth

namespace Keyword

/-- Reserved words are spelled with small letters, which come late in ASCII. -/
theorem le_toNat_of_mem_text {keyword : Keyword} {character : Char}
    (member : character ∈ keyword.text) : 97 ≤ character.toNat := by
  have late : keyword.text.all (fun letter => decide (97 ≤ letter.toNat)) = true := by
    cases keyword <;> decide
  exact of_decide_eq_true (List.all_eq_true.1 late character member)

/-- No two reserved words are spelled alike. -/
theorem text_injective {keyword other : Keyword} (same : keyword.text = other.text) :
    keyword = other := by
  cases keyword <;> cases other <;> first | rfl | exact absurd same (by decide)

end Keyword

namespace Token

/-- A word that holds a character from before the small letters is not reserved. -/
theorem is_eq_false_of_mem {token : Token} {character : Char}
    (member : character ∈ token.text) (early : character.toNat < 97)
    (keyword : Keyword) : token.is keyword = false := by
  rw [Bool.eq_false_iff]
  intro reserved
  rw [is_iff.1 reserved] at member
  exact Nat.not_le_of_lt early (Keyword.le_toNat_of_mem_text member)

/-- A token is one reserved word at most. -/
theorem is_eq_false_of_is {token : Token} {keyword other : Keyword}
    (reserved : token.is keyword = true) (different : keyword ≠ other) :
    token.is other = false := by
  rw [Bool.eq_false_iff]
  intro also
  rw [is_iff] at reserved also
  exact different (Keyword.text_injective (reserved.symm.trans also))

/-- A word of a line that has no gap above it. -/
def onLine (number : Nat) (text : List Char) : Token :=
  ⟨text, number, 0⟩

/-- The tokens of a line, given its words. -/
def ofWords (number blankLines : Nat) : List (List Char) → List Token
  | [] => []
  | first :: others => ⟨first, number, blankLines⟩ :: others.map (onLine number)

/-- Without a gap above its line, the first word is like the others. -/
theorem ofWords_zero (number : Nat) (words : List (List Char)) :
    ofWords number 0 words = words.map (onLine number) := by
  cases words <;> rfl

theorem ofLine_joinWords {words : List (List Char)}
    (good : ∀ word ∈ words, Text.IsWord word) (number blankLines : Nat) :
    ofLine number blankLines (Text.joinWords words) = ofWords number blankLines words := by
  rw [ofLine, Text.withoutComment_joinWords good, Text.words_joinWords good]
  cases words <;> rfl

theorem ofLines_nil_cons (number blankLines : Nat) (others : List (List Char)) :
    ofLines number blankLines ([] :: others) =
      ofLines (number + 1) (blankLines + 1) others :=
  rfl

/-- A line with words uses up the gap above it. -/
theorem ofLines_joinWords_cons {words : List (List Char)} (nonempty : words ≠ [])
    (good : ∀ word ∈ words, Text.IsWord word) (number blankLines : Nat)
    (others : List (List Char)) :
    ofLines number blankLines (Text.joinWords words :: others) =
      ofWords number blankLines words ++ ofLines (number + 1) 0 others := by
  have printed : Text.isBlankLine (Text.joinWords words) = false := by
    rw [Text.isBlankLine_joinWords good]
    simpa using nonempty
  rw [ofLines, printed, ofLine_joinWords good]
  rfl

/-- The header holds no tokens, and every line behind it is scanned. -/
theorem scan_joinLines {second : List Char} {others : List (List Char)}
    (plain : ∀ line ∈ second :: others, Text.IsLine line)
    (opens : Document.opensGlobal second = true) :
    scan (Text.joinLines (Document.header :: second :: others)) =
      .ok (ofLines 2 0 (second :: others)) := by
  have all : ∀ line ∈ Document.header :: second :: others, Text.IsLine line := by
    intro line member
    cases member with
    | head => exact ⟨by decide, by decide⟩
    | tail _ later => exact plain line later
  have headed : Document.isHeader Document.header = true := by decide
  rw [scan, Text.lines_joinLines all]
  simp only [headed, opens, Bool.not_true, Bool.false_eq_true, if_false]

/-! ## Places -/

/-- A document is scanned exactly when its first two lines are as they should be. -/
theorem scan_eq_ok {source : List Char} {tokens : List Token} :
    scan source = .ok tokens ↔
      ∃ first second others, Text.lines source = first :: second :: others ∧
        Document.isHeader first = true ∧ Document.opensGlobal second = true ∧
        tokens = ofLines 2 0 (second :: others) := by
  constructor
  · intro scanned
    rw [scan] at scanned
    split at scanned
    · cases scanned
    next first others lines =>
    split at scanned
    · cases scanned
    next headed =>
    split at scanned
    · cases scanned
    next second others =>
    split at scanned
    · cases scanned
    next opens =>
    cases scanned
    exact ⟨first, second, others, lines, by simpa using headed, by simpa using opens, rfl⟩
  · intro written
    rcases written with ⟨first, second, others, lines, headed, opens, rfl⟩
    rw [scan, lines]
    simp only [headed, opens, Bool.not_true, Bool.false_eq_true, if_false]

theorem line_of_mem_ofLine {number blankLines : Nat} {line : List Char} {token : Token}
    (member : token ∈ ofLine number blankLines line) : token.line = number := by
  rw [ofLine] at member
  split at member
  · cases member
  · next first others =>
      cases member with
      | head => rfl
      | tail _ later =>
          rcases List.mem_map.1 later with ⟨word, _, rfl⟩
          rfl

/-- A token of consecutive lines is on one of them. -/
theorem line_mem_of_ofLines {number blankLines : Nat} {lines : List (List Char)}
    {token : Token} (member : token ∈ ofLines number blankLines lines) :
    number ≤ token.line ∧ token.line < number + lines.length := by
  induction lines generalizing number blankLines with
  | nil => cases member
  | cons line others ih =>
      have later {gap : Nat} (among : token ∈ ofLines (number + 1) gap others) :
          number ≤ token.line ∧ token.line < number + (line :: others).length := by
        have bounds := ih among
        rw [List.length_cons]
        omega
      rw [ofLines] at member
      split at member
      · exact later member
      · cases List.mem_append.1 member with
        | inl here =>
            rw [line_of_mem_ofLine here, List.length_cons]
            omega
        | inr among => exact later among

/-- A token of a document is on one of its lines, from the second one on. -/
theorem line_mem_of_scan {source : List Char} {tokens : List Token} {token : Token}
    (scanned : scan source = .ok tokens) (member : token ∈ tokens) :
    2 ≤ token.line ∧ token.line ≤ (Text.lines source).length := by
  rcases scan_eq_ok.1 scanned with ⟨first, second, others, lines, _, _, rfl⟩
  have bounds := line_mem_of_ofLines member
  rw [lines]
  simp only [List.length_cons] at bounds ⊢
  omega

end Token

end ScoreSynth
