import Mathlib.Data.List.Forall2
import ScoreSynth.Proofs.Text.Reading
import ScoreSynth.Proofs.Token.Reading

/-!
# Tokens of an edited document

A document can be scanned in raw lines, which still have their carriage returns, because
a blank at the end of a line has no influence.  A comment moves the tokens below it and
shortens gaps, but it changes no words: scanning an edited document gives the tokens of
the document with new places, and no gap is longer than it was (`scan_of_edit`).
-/

namespace ScoreSynth.Token

/-! ## Raw lines -/

/-- The tokens of a document, given its lines. -/
def scanLines : List (List Char) → Except Fault (List Token)
  | [] => .error (.malformed 1 .noHeader)
  | first :: others =>
      if ! Document.isHeader first then .error (.malformed 1 .noHeader)
      else match others with
        | [] => .error (.malformed 2 .noGlobalLine)
        | second :: _ =>
            if ! Document.opensGlobal second then .error (.malformed 2 .noGlobalLine)
            else .ok (ofLines 2 0 others)

theorem scan_eq_scanLines (source : List Char) : scan source = scanLines (Text.lines source) :=
  rfl

/-- Whether two lines make no difference to the scan. -/
structure ReadsAlike (line other : List Char) : Prop where
  isHeader_eq : Document.isHeader line = Document.isHeader other
  opensGlobal_eq : Document.opensGlobal line = Document.opensGlobal other
  isBlankLine_eq : Text.isBlankLine line = Text.isBlankLine other
  words_eq : Text.words (Text.withoutComment line) = Text.words (Text.withoutComment other)

namespace ReadsAlike

theorem refl (line : List Char) : ReadsAlike line line :=
  ⟨rfl, rfl, rfl, rfl⟩

theorem symm {line other : List Char} (alike : ReadsAlike line other) :
    ReadsAlike other line :=
  ⟨alike.isHeader_eq.symm, alike.opensGlobal_eq.symm, alike.isBlankLine_eq.symm,
    alike.words_eq.symm⟩

end ReadsAlike

theorem ofLine_congr {line other : List Char} (alike : ReadsAlike line other)
    (number blankLines : Nat) : ofLine number blankLines line = ofLine number blankLines other := by
  rw [ofLine, ofLine, alike.words_eq]

theorem ofLines_congr {lines others : List (List Char)}
    (alike : List.Forall₂ ReadsAlike lines others) (number blankLines : Nat) :
    ofLines number blankLines lines = ofLines number blankLines others := by
  induction alike generalizing number blankLines with
  | nil => rfl
  | cons first later ih =>
      rw [ofLines, ofLines, first.isBlankLine_eq, ofLine_congr first, ih, ih]

theorem scanLines_congr {lines others : List (List Char)}
    (alike : List.Forall₂ ReadsAlike lines others) : scanLines lines = scanLines others := by
  cases alike with
  | nil => rfl
  | cons first later =>
      cases later with
      | nil => rw [scanLines, scanLines, first.isHeader_eq]
      | cons second later =>
          rw [scanLines, scanLines, first.isHeader_eq, second.opensGlobal_eq,
            ofLines_congr (.cons second later)]

/-- A character that a text does not hold is no reason for the text to begin a line. -/
theorem isPrefixOf_append_singleton {text : List Char} {character : Char}
    (absent : character ∉ text) (line : List Char) :
    text.isPrefixOf (line ++ [character]) = text.isPrefixOf line := by
  rw [Bool.eq_iff_iff, List.isPrefixOf_iff_prefix, List.isPrefixOf_iff_prefix,
    List.prefix_concat_iff]
  constructor
  · intro either
    rcases either with rfl | shorter
    · exact absurd (List.mem_append_right line (List.mem_singleton_self character)) absent
    · exact shorter
  · exact .inr

theorem isHeader_append_return (line : List Char) :
    Document.isHeader (line ++ ['\r']) = Document.isHeader line := by
  rw [Document.isHeader, Document.isHeader, List.dropWhile_append]
  split
  · next empty =>
      rw [List.isEmpty_iff.1 empty]
      rfl
  · exact isPrefixOf_append_singleton (by decide) _

/-- A carriage return at the end of a line makes no difference. -/
theorem readsAlike_append_return (line : List Char) : ReadsAlike (line ++ ['\r']) line where
  isHeader_eq := isHeader_append_return line
  opensGlobal_eq := isPrefixOf_append_singleton (by decide) line
  isBlankLine_eq := by
    rw [Text.isBlankLine, Text.isBlankLine, List.all_append]
    exact Bool.and_true _
  words_eq := Text.words_append_blank (by decide) line

theorem readsAlike_dropReturn (line : List Char) : ReadsAlike (Text.dropReturn line) line := by
  rw [Text.dropReturn]
  split
  · next ended =>
      rcases List.getLast?_eq_some_iff.1 ended with ⟨before, rfl⟩
      rw [List.dropLast_concat]
      exact (readsAlike_append_return before).symm
  · exact .refl line

/-- An empty line at the end makes no difference. -/
theorem ofLines_append_nil (number blankLines : Nat) (lines : List (List Char)) :
    ofLines number blankLines (lines ++ [[]]) = ofLines number blankLines lines := by
  induction lines generalizing number blankLines with
  | nil => rfl
  | cons line others ih => rw [List.cons_append, ofLines, ofLines, ih, ih]

theorem scanLines_append_nil (lines : List (List Char)) :
    scanLines (lines ++ [[]]) = scanLines lines := by
  match lines with
  | [] => rfl
  | [first] => rfl
  | first :: second :: others =>
      have same := ofLines_append_nil 2 0 (second :: others)
      rw [List.cons_append, List.cons_append, scanLines, scanLines, ← List.cons_append, same]

/-- A document can be cut at its line feeds alone. -/
theorem scan_eq_scanLines_splitOn (source : List Char) :
    scan source = scanLines (source.splitOn '\n') := by
  rw [scan_eq_scanLines, Text.lines]
  rcases List.eq_nil_or_concat (source.splitOn '\n') with none | ⟨ended, last, pieces⟩
  · exact absurd none (List.splitOn_ne_nil '\n' source)
  · have alike : List.Forall₂ ReadsAlike (ended.map Text.dropReturn) ended :=
      List.forall₂_map_left_iff.2 (List.forall₂_same.2 fun line _ => readsAlike_dropReturn line)
    rw [pieces, List.concat_eq_append]
    simp only [List.dropLast_concat, List.getLast?_concat]
    cases last with
    | nil => rw [scanLines_append_nil, scanLines_congr alike]
    | cons character others =>
        exact scanLines_congr (List.rel_append alike (.cons (.refl _) .nil))

/-! ## Carriage returns -/

/-- In raw lines, the carriage returns that are put before line feeds stand at the ends of
lines. -/
theorem readsAlike_splitOn_withReturns (source : List Char) :
    List.Forall₂ ReadsAlike ((Text.withReturns source).splitOn '\n') (source.splitOn '\n') := by
  -- The first line is built up character by character, so it is known only up to its end.
  have ends : List.Forall₂ (fun line other => line = other ∨ line = other ++ ['\r'])
      ((Text.withReturns source).splitOn '\n') (source.splitOn '\n') := by
    induction source with
    | nil => exact .cons (.inl rfl) .nil
    | cons character others ih =>
        rw [Text.withReturns, List.flatMap_cons, ← Text.withReturns]
        split
        · next feed =>
            subst feed
            rw [List.cons_append, List.splitOn_cons_eq_if_modifyHead, List.cons_append,
              List.nil_append, List.splitOn_cons_eq_if_modifyHead,
              List.splitOn_cons_eq_if_modifyHead]
            exact .cons (.inr rfl) ih
        · next inside =>
            have other : ¬ (character == '\n') = true := by simpa using inside
            rw [List.singleton_append, List.splitOn_cons_eq_if_modifyHead, if_neg other,
              List.splitOn_cons_eq_if_modifyHead, if_neg other]
            generalize (Text.withReturns others).splitOn '\n' = lines at ih
            generalize others.splitOn '\n' = pieces at ih
            cases ih with
            | nil => exact .nil
            | cons first later =>
                refine .cons ?_ later
                rcases first with rfl | rfl
                · exact .inl rfl
                · exact .inr rfl
  refine ends.imp fun line other either => ?_
  rcases either with rfl | rfl
  · exact .refl line
  · exact readsAlike_append_return other

/-- Carriage returns before line feeds make no difference. -/
theorem scan_withReturns (source : List Char) : scan (Text.withReturns source) = scan source := by
  rw [scan_eq_scanLines_splitOn, scan_eq_scanLines_splitOn,
    scanLines_congr (readsAlike_splitOn_withReturns source)]

/-! ## Comments -/

/-- Let a gap reach up to a given line only. -/
def closeGap (last : Nat) (token : Token) : Token :=
  if last < token.line then
    { token with blankLines := min token.blankLines (token.line - 1 - last) }
  else token

/-- Make room for a line below a given one. -/
def moveBelow (last : Nat) (token : Token) : Token :=
  if last < token.line then { token with line := token.line + 1 } else token

/-- The number of blank lines that some lines end with, where the given number of them
stands above. -/
def gapBehind (blankLines : Nat) (lines : List (List Char)) : Nat :=
  lines.foldl (fun gap line => if Text.isBlankLine line then gap + 1 else 0) blankLines

theorem ofLines_append (number blankLines : Nat) (upper lower : List (List Char)) :
    ofLines number blankLines (upper ++ lower) =
      ofLines number blankLines upper ++
        ofLines (number + upper.length) (gapBehind blankLines upper) lower := by
  induction upper generalizing number blankLines with
  | nil => rfl
  | cons line others ih =>
      have reached : number + 1 + others.length = number + (line :: others).length := by
        rw [List.length_cons]
        omega
      rw [List.cons_append, ofLines, ofLines, gapBehind, List.foldl_cons, ← gapBehind]
      split
      · rw [ih, reached]
      · rw [ih, reached, List.append_assoc]

/-- A gap reaches only over the lines that are scanned. -/
theorem blankLines_le_of_mem_ofLines {number blankLines : Nat} {lines : List (List Char)}
    {token : Token} (member : token ∈ ofLines number blankLines lines) :
    number + token.blankLines ≤ token.line + blankLines := by
  induction lines generalizing number blankLines with
  | nil => cases member
  | cons line others ih =>
      rw [ofLines] at member
      split at member
      · have bound := ih member
        omega
      rcases List.mem_append.1 member with here | later
      · rw [ofLine] at here
        split at here
        · cases here
        · cases here with
          | head => exact Nat.le_refl _
          | tail _ among =>
              rcases List.mem_map.1 among with ⟨word, _, rfl⟩
              exact Nat.le_add_right _ _
      · have bound := ih later
        omega

/-- A change of no effect on any of the tokens. -/
theorem map_eq_self {change : Token → Token} {tokens : List Token}
    (unchanged : ∀ token ∈ tokens, change token = token) : tokens.map change = tokens :=
  (List.map_congr_left unchanged).trans (List.map_id' tokens)

/-- A gap that does not reach up to a line is not closed there. -/
theorem closeGap_of_mem_ofLines {last number : Nat} (below : last < number)
    {lines : List (List Char)} {token : Token} (member : token ∈ ofLines number 0 lines) :
    closeGap last token = token := by
  have gap := blankLines_le_of_mem_ofLines member
  rw [closeGap]
  split
  · rw [Nat.min_eq_left (by omega)]
  · rfl

theorem map_closeGap_ofLines {last number : Nat} (below : last < number)
    (lines : List (List Char)) :
    (ofLines number 0 lines).map (closeGap last) = ofLines number 0 lines :=
  map_eq_self fun _ member => closeGap_of_mem_ofLines below member

theorem map_closeGap_ofLine (last count blankLines : Nat) (line : List Char) :
    (ofLine (last + 1 + count) (blankLines + count) line).map (closeGap last) =
      ofLine (last + 1 + count) count line := by
  have below : last < last + 1 + count := by omega
  have gap : min (blankLines + count) (last + 1 + count - 1 - last) = count := by omega
  rw [ofLine, ofLine]
  split
  · rfl
  · simp only [List.map_cons, List.map_map, Function.comp_def, closeGap, below, if_true, gap,
      Nat.zero_min]

/-- Below a line at which all gaps are closed, lines are scanned as if no blank lines stood
above them.  `count` lines below that line have been found to be blank. -/
theorem map_closeGap_ofLines_add (last count blankLines : Nat) (lines : List (List Char)) :
    (ofLines (last + 1 + count) (blankLines + count) lines).map (closeGap last) =
      ofLines (last + 1 + count) count lines := by
  induction lines generalizing count with
  | nil => rfl
  | cons line others ih =>
      rw [ofLines, ofLines]
      split
      · exact ih (count + 1)
      · rw [List.map_append, map_closeGap_ofLine, map_closeGap_ofLines (by omega)]

theorem map_closeGap_ofLines_below (last blankLines : Nat) (lines : List (List Char)) :
    (ofLines (last + 1) blankLines lines).map (closeGap last) = ofLines (last + 1) 0 lines :=
  map_closeGap_ofLines_add last 0 blankLines lines

/-- Lines further down give tokens further down. -/
theorem ofLines_succ (number blankLines : Nat) (lines : List (List Char)) :
    ofLines (number + 1) blankLines lines =
      (ofLines number blankLines lines).map fun token => { token with line := token.line + 1 } := by
  induction lines generalizing number blankLines with
  | nil => rfl
  | cons line others ih =>
      rw [ofLines, ofLines]
      split
      · exact ih (number + 1) (blankLines + 1)
      · rw [List.map_append, ih (number + 1) 0, ofLine, ofLine]
        split
        · rfl
        · simp only [List.map_cons, List.map_map, Function.comp_def]

theorem closeGap_of_line_le {last : Nat} {token : Token} (above : token.line ≤ last) :
    closeGap last token = token :=
  if_neg (Nat.not_lt.2 above)

theorem moveBelow_of_line_le {last : Nat} {token : Token} (above : token.line ≤ last) :
    moveBelow last token = token :=
  if_neg (Nat.not_lt.2 above)

theorem ofLine_eq_nil {line : List Char} (none : Text.words (Text.withoutComment line) = [])
    (number blankLines : Nat) : ofLine number blankLines line = [] := by
  rw [ofLine, none]

/-- A line for a comment, put behind the given number of lines. -/
theorem ofLines_insert {upper lower : List (List Char)} {comment : List Char}
    {number last : Nat} (only : Text.IsComment comment) (reached : number + upper.length = last + 1)
    (blankLines : Nat) :
    ofLines number blankLines (upper ++ comment :: lower) =
      (ofLines number blankLines (upper ++ lower)).map (moveBelow last ∘ closeGap last) := by
  rcases Text.words_of_isComment only with ⟨printed, none⟩
  have above : (ofLines number blankLines upper).map (moveBelow last ∘ closeGap last) =
      ofLines number blankLines upper := by
    refine map_eq_self fun token member => ?_
    have bounds := line_mem_of_ofLines member
    rw [Function.comp_apply, closeGap_of_line_le (by omega), moveBelow_of_line_le (by omega)]
  have below (gap : Nat) : (ofLines (last + 1) gap lower).map (moveBelow last ∘ closeGap last) =
      ofLines (last + 2) 0 lower := by
    rw [← List.map_map, map_closeGap_ofLines_below, ofLines_succ (last + 1)]
    refine List.map_congr_left fun token member => if_pos ?_
    exact (line_mem_of_ofLines member).1
  rw [ofLines_append, ofLines_append, List.map_append, above, reached, below, ofLines, printed,
    ofLine_eq_nil none]
  rfl

/-- A comment at the end of the line behind the given ones. -/
theorem ofLines_append_comment (number blankLines : Nat) (upper : List (List Char))
    (line comment : List Char) (lower : List (List Char)) :
    ofLines number blankLines (upper ++ (line ++ ';' :: comment) :: lower) =
      (ofLines number blankLines (upper ++ line :: lower)).map
        (closeGap (number + upper.length)) := by
  have above : (ofLines number blankLines upper).map (closeGap (number + upper.length)) =
      ofLines number blankLines upper := by
    refine map_eq_self fun token member => ?_
    have bounds := line_mem_of_ofLines member
    exact closeGap_of_line_le (by omega)
  rw [ofLines_append, ofLines_append, List.map_append, above]
  generalize number + upper.length = last
  generalize gapBehind blankLines upper = gap
  have words := Text.withoutComment_append_comment line comment
  rw [ofLines, Text.isBlankLine_append_comment, ofLines]
  split
  · contradiction
  split
  · next blank =>
      have none : ofLine last gap (line ++ ';' :: comment) = [] :=
        ofLine_eq_nil (by rw [words]; exact Text.words_of_isBlankLine blank) last gap
      rw [none, map_closeGap_ofLines_below, List.nil_append]
  · have here : (ofLine last gap line).map (closeGap last) = ofLine last gap line :=
      map_eq_self fun _ member =>
        closeGap_of_line_le (Nat.le_of_eq (line_of_mem_ofLine member))
    rw [List.map_append, here, map_closeGap_ofLines (Nat.lt_succ_self last), ofLine, words,
      ← ofLine]

/-! ## Edited documents -/

/-- Whether a change of tokens keeps their texts and makes no gap longer. -/
structure Relaxes (change : Token → Token) : Prop where
  text_eq : ∀ token, (change token).text = token.text
  blankLines_le : ∀ token, (change token).blankLines ≤ token.blankLines

theorem relaxes_closeGap (last : Nat) : Relaxes (closeGap last) := by
  constructor <;> intro token <;> rw [closeGap] <;> split
  · rfl
  · rfl
  · exact Nat.min_le_left _ _
  · exact Nat.le_refl _

theorem relaxes_moveBelow (last : Nat) : Relaxes (moveBelow last) := by
  constructor <;> intro token <;> rw [moveBelow] <;> split
  · rfl
  · rfl
  · exact Nat.le_refl _
  · exact Nat.le_refl _

theorem Relaxes.comp {first second : Token → Token} (after : Relaxes second)
    (before : Relaxes first) : Relaxes (second ∘ first) where
  text_eq := fun token => (after.text_eq _).trans (before.text_eq token)
  blankLines_le := fun token => (after.blankLines_le _).trans (before.blankLines_le token)

theorem scanLines_cons_cons {first second : List Char} {others : List (List Char)}
    {tokens : List Token} :
    scanLines (first :: second :: others) = .ok tokens ↔
      Document.isHeader first = true ∧ Document.opensGlobal second = true ∧
        tokens = ofLines 2 0 (second :: others) := by
  rw [scanLines]
  cases Document.isHeader first <;> cases Document.opensGlobal second <;> simp [eq_comm]

/-- A line for a comment below the second line. -/
theorem scanLines_insert {upper lower : List (List Char)} {comment : List Char}
    {tokens : List Token} (inner : 2 ≤ upper.length) (only : Text.IsComment comment)
    (scanned : scanLines (upper ++ lower) = .ok tokens) :
    ∃ change, Relaxes change ∧
      scanLines (upper ++ comment :: lower) = .ok (tokens.map change) := by
  match upper with
  | first :: second :: upper =>
      rcases scanLines_cons_cons.1 scanned with ⟨headed, opens, rfl⟩
      have reached : 2 + (second :: upper).length = upper.length + 2 + 1 := by
        rw [List.length_cons]
        omega
      refine ⟨_, (relaxes_moveBelow (upper.length + 2)).comp (relaxes_closeGap (upper.length + 2)),
        scanLines_cons_cons.2 ⟨headed, opens, ?_⟩⟩
      exact (ofLines_insert only reached 0).symm

/-- A comment at the end of a line below the first one. -/
theorem scanLines_append_comment {upper lower : List (List Char)} {line comment : List Char}
    {tokens : List Token} (inner : upper ≠ [])
    (scanned : scanLines (upper ++ line :: lower) = .ok tokens) :
    ∃ change, Relaxes change ∧
      scanLines (upper ++ (line ++ ';' :: comment) :: lower) = .ok (tokens.map change) := by
  match upper with
  | [first] =>
      rcases scanLines_cons_cons.1 scanned with ⟨headed, opens, rfl⟩
      have opened : Document.opensGlobal (line ++ ';' :: comment) = true :=
        List.isPrefixOf_iff_prefix.2
          ((List.isPrefixOf_iff_prefix.1 opens).trans (List.prefix_append line _))
      refine ⟨_, relaxes_closeGap 2, scanLines_cons_cons.2 ⟨headed, opened, ?_⟩⟩
      exact (ofLines_append_comment 2 0 [] line comment lower).symm
  | first :: second :: upper =>
      rcases scanLines_cons_cons.1 scanned with ⟨headed, opens, rfl⟩
      refine ⟨_, relaxes_closeGap (2 + (second :: upper).length),
        scanLines_cons_cons.2 ⟨headed, opens, ?_⟩⟩
      exact (ofLines_append_comment 2 0 (second :: upper) line comment lower).symm

/-- Lines that are each ended by a line feed are raw lines of their text. -/
theorem splitOn_joinLines_append {upper : List (List Char)} (whole : ∀ line ∈ upper, '\n' ∉ line)
    (below : List Char) :
    (Text.joinLines upper ++ below).splitOn '\n' = upper ++ below.splitOn '\n' := by
  induction upper with
  | nil => rfl
  | cons line others ih =>
      rcases List.forall_mem_cons.1 whole with ⟨lineWhole, othersWhole⟩
      rw [Text.joinLines_cons, List.append_assoc, List.cons_append,
        List.splitOn_append_cons_self_of_not_mem lineWhole, ih othersWhole]
      rfl

/-- What ends a line leaves a carriage return of the line at most. -/
theorem exists_splitOn_append_feed {feed : List Char} (feeds : Text.IsFeed feed)
    (below : List Char) :
    ∃ carriage, (carriage = [] ∨ carriage = ['\r']) ∧
      ∀ line, '\n' ∉ line →
        (line ++ (feed ++ below)).splitOn '\n' = (line ++ carriage) :: below.splitOn '\n' := by
  rcases feeds with rfl | rfl
  · refine ⟨[], .inl rfl, fun line inside => ?_⟩
    rw [List.singleton_append, List.splitOn_append_cons_self_of_not_mem inside, List.append_nil]
  · refine ⟨['\r'], .inr rfl, fun line inside => ?_⟩
    have longer : '\n' ∉ line ++ ['\r'] := by simpa using inside
    rw [← List.singleton_append, List.append_assoc, ← List.append_assoc line,
      List.singleton_append, List.splitOn_append_cons_self_of_not_mem longer]

theorem exists_splitOn_append {below : List Char} (follows : Text.FollowsLine below) :
    ∃ carriage lower, (carriage = [] ∨ carriage = ['\r']) ∧
      ∀ line, '\n' ∉ line → (line ++ below).splitOn '\n' = (line ++ carriage) :: lower := by
  rcases follows with rfl | ⟨feed, below, feeds, rfl⟩
  · refine ⟨[], [], .inl rfl, fun line inside => ?_⟩
    rw [List.append_nil, List.splitOn_eq_singleton inside]
  · rcases exists_splitOn_append_feed feeds below with ⟨carriage, returned, pieces⟩
    exact ⟨carriage, below.splitOn '\n', returned, pieces⟩

theorem scanLines_append_return {carriage : List Char}
    (returned : carriage = [] ∨ carriage = ['\r']) (upper : List (List Char)) (line : List Char)
    (lower : List (List Char)) :
    scanLines (upper ++ (line ++ carriage) :: lower) = scanLines (upper ++ line :: lower) := by
  have alike : ReadsAlike (line ++ carriage) line := by
    rcases returned with rfl | rfl
    · rw [List.append_nil]
      exact .refl line
    · exact readsAlike_append_return line
  have same (lines : List (List Char)) : List.Forall₂ ReadsAlike lines lines :=
    List.forall₂_same.2 fun line _ => .refl line
  exact scanLines_congr (List.rel_append (same upper) (.cons alike (same lower)))

/-- A last line is the same whether a line feed ends it or not. -/
theorem scanLines_append_last {last ending : List Char} (inside : '\n' ∉ last)
    (ended : ending = [] ∨ ending = ['\n']) (upper : List (List Char)) :
    scanLines (upper ++ (last ++ ending).splitOn '\n') = scanLines (upper ++ [last]) := by
  rcases ended with rfl | rfl
  · rw [List.append_nil, List.splitOn_eq_singleton inside]
  · rw [List.splitOn_append_cons_self_of_not_mem inside, List.splitOn_nil,
      ← scanLines_append_nil (upper ++ [last]), List.append_assoc]
    rfl

/-- A comment below the first line of a document changes no words, and makes no gap longer. -/
theorem scan_of_edit {source edited : List Char} {tokens : List Token}
    (edit : Text.Edit source edited) (scanned : scan source = .ok tokens) :
    ∃ change, Relaxes change ∧ scan edited = .ok (tokens.map change) := by
  rw [scan_eq_scanLines_splitOn] at scanned ⊢
  cases edit with
  | @insert upper comment below whole inner only =>
      rw [splitOn_joinLines_append whole] at scanned
      rw [List.append_assoc, splitOn_joinLines_append whole,
        List.splitOn_append_cons_self_of_not_mem (Text.not_mem_of_isComment only)]
      exact scanLines_insert inner only scanned
  | @insertUnended upper comment whole inner only =>
      rw [← List.append_nil (Text.joinLines upper), splitOn_joinLines_append whole,
        List.splitOn_nil, scanLines_append_nil, ← List.append_nil upper] at scanned
      rw [splitOn_joinLines_append whole,
        List.splitOn_eq_singleton (Text.not_mem_of_isComment only)]
      exact scanLines_insert inner only scanned
  | @insertLast upper last feed comment ending whole inner unended nonempty feeds only ended =>
      have two : 2 ≤ (upper ++ [last]).length := by
        have one := List.length_pos_of_ne_nil inner
        rw [List.length_append, List.length_singleton]
        omega
      rcases exists_splitOn_append_feed feeds (comment ++ ending) with
        ⟨carriage, returned, pieces⟩
      have below : upper ++ last :: (comment ++ ending).splitOn '\n' =
          (upper ++ [last]) ++ (comment ++ ending).splitOn '\n' := by
        rw [List.append_assoc, List.singleton_append]
      rw [splitOn_joinLines_append whole, List.splitOn_eq_singleton unended,
        ← List.append_nil (upper ++ [last])] at scanned
      rw [List.append_assoc, List.append_assoc, List.append_assoc, splitOn_joinLines_append whole,
        pieces last unended, scanLines_append_return returned, below,
        scanLines_append_last (Text.not_mem_of_isComment only) ended]
      exact scanLines_insert two only scanned
  | @append upper line comment below whole inner inside follows =>
      rcases exists_splitOn_append follows with ⟨carriage, lower, returned, pieces⟩
      have lineInside : '\n' ∉ line := fun member => inside (List.mem_append_left comment member)
      have longerInside : '\n' ∉ line ++ ';' :: comment := by simpa using inside
      rw [List.append_assoc, splitOn_joinLines_append whole, pieces line lineInside,
        scanLines_append_return returned] at scanned
      rw [List.append_assoc, List.append_assoc, splitOn_joinLines_append whole,
        ← List.append_assoc line, pieces _ longerInside, scanLines_append_return returned]
      exact scanLines_append_comment inner scanned

end ScoreSynth.Token
