import Mathlib.Data.List.TakeWhile
import ScoreSynth.Text.Lines
import ScoreSynth.Text.Words

/-!
# Joined lines and joined words

Lines that are joined are cut apart again as they were, if none of them holds a line
feed or ends in a carriage return.  Words that are joined are read again as they were,
and a line of joined words holds no comment.
-/

namespace ScoreSynth.Text

/-! ## Lines -/

/-- Whether a text can be a line of a document: it holds no line feed, and no carriage
return that would belong to the line's end. -/
def IsLine (line : List Char) : Prop :=
  '\n' ∉ line ∧ line.getLast? ≠ some '\r'

instance (line : List Char) : Decidable (IsLine line) :=
  inferInstanceAs (Decidable (_ ∧ _))

@[simp] theorem joinLines_cons (line : List Char) (others : List (List Char)) :
    joinLines (line :: others) = line ++ '\n' :: joinLines others := by
  simp [joinLines]

theorem dropReturn_of_isLine {line : List Char} (plain : IsLine line) :
    dropReturn line = line :=
  if_neg plain.2

/-- Joined lines are cut at their ends, and an empty piece is left. -/
theorem splitOn_joinLines {lines : List (List Char)}
    (plain : ∀ line ∈ lines, IsLine line) :
    (joinLines lines).splitOn '\n' = lines ++ [[]] := by
  induction lines with
  | nil => rfl
  | cons line others ih =>
      rcases List.forall_mem_cons.1 plain with ⟨lineIs, othersAre⟩
      rw [joinLines_cons, List.splitOn_append_cons_self_of_not_mem lineIs.1, ih othersAre]
      rfl

theorem lines_joinLines {lines : List (List Char)} (plain : ∀ line ∈ lines, IsLine line) :
    Text.lines (joinLines lines) = lines := by
  have kept : lines.map dropReturn = lines.map id :=
    List.map_congr_left fun line member => dropReturn_of_isLine (plain line member)
  simp only [Text.lines, splitOn_joinLines plain, List.dropLast_concat, List.getLast?_concat]
  rw [kept, List.map_id]

/-! ## Words -/

theorem isWord_append {first second : List Char} (before : IsWord first)
    (after : ∀ character ∈ second, isBlank character = false ∧ character ≠ ';') :
    IsWord (first ++ second) := by
  constructor
  · exact List.append_ne_nil_of_left_ne_nil before.1 second
  · intro character member
    rcases List.mem_append.1 member with member | member
    · exact before.2 character member
    · exact after character member

@[simp] theorem words_nil : words [] = [] := by
  simp [words]

theorem words_of_isWord {word : List Char} (good : IsWord word) : words word = [word] := by
  rw [words, List.splitOnP_eq_singleton fun character member => (good.2 character member).1]
  simp [good.1]

/-- A blank separates the words before it from the words behind it. -/
theorem words_append_cons {blank : Char} (separates : isBlank blank = true)
    (before after : List Char) :
    words (before ++ blank :: after) = words before ++ words after := by
  rw [words, List.splitOnP_append_cons before after separates, List.filter_append]
  rfl

@[simp] theorem joinWords_nil : joinWords [] = [] := rfl

@[simp] theorem joinWords_singleton (word : List Char) : joinWords [word] = word :=
  List.intercalate_singleton

theorem joinWords_cons_cons (first second : List Char) (others : List (List Char)) :
    joinWords (first :: second :: others) =
      first ++ ' ' :: joinWords (second :: others) := by
  simp [joinWords, List.intercalate_cons_cons]

theorem words_joinWords {texts : List (List Char)} (good : ∀ text ∈ texts, IsWord text) :
    words (joinWords texts) = texts := by
  induction texts with
  | nil => exact words_nil
  | cons first others ih =>
      rcases List.forall_mem_cons.1 good with ⟨firstGood, othersGood⟩
      cases others with
      | nil => rw [joinWords_singleton, words_of_isWord firstGood]
      | cons second others =>
          rw [joinWords_cons_cons, words_append_cons (by decide), ih othersGood,
            words_of_isWord firstGood]
          rfl

/-- Every character of joined words is a space or belongs to a word. -/
theorem mem_joinWords {texts : List (List Char)} {character : Char}
    (member : character ∈ joinWords texts) :
    character = ' ' ∨ ∃ text ∈ texts, character ∈ text := by
  induction texts with
  | nil => cases member
  | cons first others ih =>
      cases others with
      | nil =>
          rw [joinWords_singleton] at member
          exact .inr ⟨first, List.mem_cons_self, member⟩
      | cons second others =>
          rw [joinWords_cons_cons] at member
          rcases List.mem_append.1 member with inFirst | later
          · exact .inr ⟨first, List.mem_cons_self, inFirst⟩
          rcases List.mem_cons.1 later with space | later
          · exact .inl space
          · rcases ih later with space | ⟨text, among, inText⟩
            · exact .inl space
            · exact .inr ⟨text, List.mem_cons_of_mem _ among, inText⟩

/-- The characters of joined words are spaces and characters that no word ends at. -/
theorem plain_of_mem_joinWords {texts : List (List Char)}
    (good : ∀ text ∈ texts, IsWord text) {character : Char}
    (member : character ∈ joinWords texts) :
    character = ' ' ∨ isBlank character = false ∧ character ≠ ';' := by
  rcases mem_joinWords member with space | ⟨text, among, inText⟩
  · exact .inl space
  · exact .inr ((good text among).2 character inText)

theorem isLine_joinWords {texts : List (List Char)} (good : ∀ text ∈ texts, IsWord text) :
    IsLine (joinWords texts) := by
  have absent (blank : Char) (separates : isBlank blank = true) (other : blank ≠ ' ') :
      blank ∉ joinWords texts := by
    intro member
    rcases plain_of_mem_joinWords good member with space | ⟨plain, _⟩
    · exact other space
    · rw [separates] at plain
      cases plain
  constructor
  · exact absent '\n' (by decide) (by decide)
  · intro last
    exact absent '\r' (by decide) (by decide) (List.mem_of_getLast? last)

theorem withoutComment_joinWords {texts : List (List Char)}
    (good : ∀ text ∈ texts, IsWord text) :
    withoutComment (joinWords texts) = joinWords texts := by
  apply List.takeWhile_eq_self_iff.2
  intro character member
  rcases plain_of_mem_joinWords good member with rfl | ⟨_, plain⟩
  · decide
  · simpa using plain

theorem exists_joinWords_cons (first : List Char) (others : List (List Char)) :
    ∃ rest, joinWords (first :: others) = first ++ rest := by
  cases others with
  | nil => exact ⟨[], by rw [joinWords_singleton, List.append_nil]⟩
  | cons second others => exact ⟨_, joinWords_cons_cons first second others⟩

/-- A line of joined words is blank only if there are no words. -/
theorem isBlankLine_joinWords {texts : List (List Char)}
    (good : ∀ text ∈ texts, IsWord text) :
    isBlankLine (joinWords texts) = texts.isEmpty := by
  cases texts with
  | nil => rfl
  | cons first others =>
      rcases good first List.mem_cons_self with ⟨nonempty, plain⟩
      rcases List.exists_mem_of_ne_nil first nonempty with ⟨character, member⟩
      rcases exists_joinWords_cons first others with ⟨rest, equal⟩
      rw [equal, isBlankLine, List.isEmpty_cons, List.all_eq_false]
      exact ⟨character, List.mem_append_left rest member, by simp [(plain character member).1]⟩

end ScoreSynth.Text
