import ScoreSynth.Proofs.Runs
import ScoreSynth.Proofs.Text.Joining
import ScoreSynth.Text.Edit

/-!
# Words of a line

Whatever a line holds before its comment is read as words (`isWord_of_mem_words`), and a
line that begins with a word has that word, perhaps with more letters behind it, as its
first one (`exists_words_of_isWord_append`).  A blank at the end of a line and a comment
do not change its words; a comment only makes a blank line one that is not.
-/

namespace ScoreSynth.Text

/-- No piece of a list that is cut at some elements holds one of them, or an element that
is not the list's. -/
theorem mem_of_mem_splitOnP {α : Type} {cuts : α → Bool} {elements piece : List α}
    (member : piece ∈ elements.splitOnP cuts) :
    ∀ element ∈ piece, cuts element = false ∧ element ∈ elements := by
  induction elements generalizing piece with
  | nil =>
      rw [List.splitOnP_nil, List.mem_singleton] at member
      simp [member]
  | cons first others ih =>
      have later {other : List α} (among : other ∈ others.splitOnP cuts) :
          ∀ element ∈ other, cuts element = false ∧ element ∈ first :: others :=
        fun element inside => ⟨(ih among element inside).1,
          List.mem_cons_of_mem first (ih among element inside).2⟩
      rw [List.splitOnP_cons_eq_if_modifyHead] at member
      split at member
      · cases member with
        | head => simp
        | tail _ among => exact later among
      · next kept =>
          rcases List.exists_cons_of_ne_nil (List.splitOnP_ne_nil cuts others) with
            ⟨head, tail, pieces⟩
          rw [pieces, List.modifyHead_cons] at member
          rw [pieces] at later
          cases member with
          | head =>
              exact List.forall_mem_cons.2
                ⟨⟨by simpa using kept, List.mem_cons_self⟩, later List.mem_cons_self⟩
          | tail _ among => exact later (List.mem_cons_of_mem head among)

theorem ne_of_mem_withoutComment {line : List Char} {character : Char}
    (member : character ∈ withoutComment line) : character ≠ ';' := by
  simpa using List.mem_takeWhile_imp member

theorem isWord_of_mem_words {line word : List Char}
    (member : word ∈ words (withoutComment line)) : IsWord word := by
  rcases List.mem_filter.1 member with ⟨piece, nonempty⟩
  refine ⟨by simpa using nonempty, fun character inside => ?_⟩
  rcases mem_of_mem_splitOnP piece character inside with ⟨printed, among⟩
  exact ⟨printed, ne_of_mem_withoutComment among⟩

theorem exists_words_of_isWord_append {word : List Char} (good : IsWord word)
    (others : List Char) :
    ∃ more later, words (withoutComment (word ++ others)) = (word ++ more) :: later := by
  have kept : withoutComment (word ++ others) = word ++ withoutComment others :=
    List.takeWhile_append_of_pos fun character member => by
      simpa using (good.2 character member).2
  have longer {more : List Char} (solid : ∀ character ∈ more, isBlank character = false)
      (inside : more ⊆ withoutComment others) : IsWord (word ++ more) :=
    isWord_append good fun character member =>
      ⟨solid character member, ne_of_mem_withoutComment (inside member)⟩
  rw [kept]
  cases rest : (withoutComment others).dropWhile (! isBlank ·) with
  | nil =>
      have solid : ∀ character ∈ withoutComment others, isBlank character = false := by
        simpa [List.dropWhile_eq_nil_iff] using rest
      exact ⟨withoutComment others, [], words_of_isWord (longer solid (List.Subset.refl _))⟩
  | cons blank after =>
      rcases Runs.eq_append_cons_of_dropWhile rest with ⟨whole, solid, separates⟩
      have first : IsWord (word ++ (withoutComment others).takeWhile (! isBlank ·)) :=
        longer (by simpa using solid) (List.takeWhile_subset _)
      generalize (withoutComment others).takeWhile (! isBlank ·) = more at whole first
      refine ⟨more, words after, ?_⟩
      calc words (word ++ withoutComment others)
          = words ((word ++ more) ++ blank :: after) := by rw [List.append_assoc, ← whole]
        _ = words (word ++ more) ++ words after :=
            words_append_cons (by simpa using separates) _ _
        _ = (word ++ more) :: words after := by rw [words_of_isWord first]; rfl

/-! ## Blanks and comments -/

theorem withoutComment_eq_self {line : List Char} (plain : ';' ∉ line) :
    withoutComment line = line :=
  List.takeWhile_eq_self_iff.2 fun character member => by
    simpa using ne_of_mem_of_not_mem member plain

/-- Nothing behind the first semicolon of a line matters. -/
theorem withoutComment_append_cons {line : List Char} (plain : ';' ∉ line)
    (comment : List Char) : withoutComment (line ++ ';' :: comment) = line :=
  Runs.takeWhile_append_cons (fun character member => by
    simpa using ne_of_mem_of_not_mem member plain) (by simp) comment

/-- A comment at the end of a line, whether the line has another one or not. -/
theorem withoutComment_append_comment (line comment : List Char) :
    withoutComment (line ++ ';' :: comment) = withoutComment line := by
  by_cases commented : ';' ∈ line
  · rcases List.eq_append_cons_of_mem commented with ⟨before, after, rfl, plain⟩
    rw [List.append_assoc, List.cons_append, withoutComment_append_cons plain,
      withoutComment_append_cons plain]
  · rw [withoutComment_append_cons commented, withoutComment_eq_self commented]

theorem words_append_blank {blank : Char} (separates : isBlank blank = true)
    (line : List Char) :
    words (withoutComment (line ++ [blank])) = words (withoutComment line) := by
  by_cases commented : ';' ∈ line
  · rcases List.eq_append_cons_of_mem commented with ⟨before, after, rfl, plain⟩
    rw [List.append_assoc, List.cons_append, withoutComment_append_cons plain,
      withoutComment_append_cons plain]
  · have kept : ';' ∉ line ++ [blank] := by
      have other : ';' ≠ blank := by
        rintro rfl
        exact absurd separates (by decide)
      simpa [other] using commented
    rw [withoutComment_eq_self kept, withoutComment_eq_self commented,
      words_append_cons separates, words_nil, List.append_nil]

theorem words_eq_nil {line : List Char}
    (blank : ∀ character ∈ line, isBlank character = true) : words line = [] := by
  induction line with
  | nil => exact words_nil
  | cons character others ih =>
      rcases List.forall_mem_cons.1 blank with ⟨separates, othersBlank⟩
      rw [← List.nil_append (character :: others), words_append_cons separates, words_nil,
        ih othersBlank]
      rfl

/-- A line of blanks has no words. -/
theorem words_of_isBlankLine {line : List Char} (blank : isBlankLine line = true) :
    words (withoutComment line) = [] :=
  words_eq_nil fun character member =>
    List.all_eq_true.1 blank character (List.takeWhile_subset _ member)

/-- A line with a comment is not blank. -/
theorem isBlankLine_append_comment (line comment : List Char) :
    isBlankLine (line ++ ';' :: comment) = false :=
  List.all_eq_false.2 ⟨';', by simp, by decide⟩

theorem not_mem_of_isComment {line : List Char} (only : IsComment line) : '\n' ∉ line := by
  rcases only with ⟨_, _, _, _, inside⟩
  exact inside

/-- A line of a comment alone has no words. -/
theorem words_of_isComment {line : List Char} (only : IsComment line) :
    isBlankLine line = false ∧ words (withoutComment line) = [] := by
  rcases only with ⟨blanks, comment, rfl, blank, _⟩
  refine ⟨isBlankLine_append_comment blanks comment, ?_⟩
  rw [withoutComment_append_comment]
  exact words_of_isBlankLine (List.all_eq_true.2 blank)

end ScoreSynth.Text
