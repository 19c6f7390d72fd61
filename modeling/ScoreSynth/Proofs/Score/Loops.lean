import ScoreSynth.Proofs.Runs
import ScoreSynth.Proofs.Stepwise
import ScoreSynth.Proofs.Token.Reading
import ScoreSynth.Score.Loops

/-!
# Expanding pieces

A body is written as a sequence of pieces, each of them a word outside all loops or a
loop.  Expanding such a body replaces every loop by as many copies of its inside as its
count says, and keeps the order of the pieces.  No other body can be expanded
(`expandLoops_eq_ok`).
-/

namespace ScoreSynth

namespace Score

open Stepwise

/-- A part of a body: a word outside all loops, or a loop. -/
inductive Piece where
  | word (token : Token)
  | loop (opening count : Token) (body : List Token) (closing : Token)

namespace Piece

/-- The tokens of a piece as it is written. -/
def tokens : Piece → List Token
  | word token => [token]
  | loop opening count body closing => opening :: count :: body ++ [closing]

/-- How often a loop is played, as far as that can be read. -/
def number? (count : Token) : Option Nat :=
  Numeral.natural? Numeral.bound64 count.text

/-- The tokens that a piece stands for. -/
def expanded : Piece → List Token
  | word token => [token]
  | loop _ count body _ => copies ((number? count).getD 0) body

/-- Whether a piece is what it claims to be: the words of a loop stand in their places
and nowhere else, and a loop is played at least twice. -/
def WellFormed : Piece → Prop
  | word token => isLoopMark token = false
  | loop opening count body closing =>
      opening.is .loop = true ∧ closing.is .endloop = true ∧
        (∀ token ∈ count :: body, isLoopMark token = false) ∧
        ∃ number, number? count = some number ∧ 2 ≤ number

end Piece

/-- Copies hold nothing but what is copied. -/
theorem copies_subset {α : Type} (count : Nat) (body : List α) : copies count body ⊆ body := by
  intro element member
  rw [copies_eq] at member
  rcases List.mem_flatten.1 member with ⟨copy, among, inside⟩
  rwa [List.eq_of_mem_replicate among] at inside

theorem isLoopMark_of_loop {token : Token} (opens : token.is .loop = true) :
    isLoopMark token = true := by
  simp [isLoopMark, opens]

theorem isLoopMark_of_endloop {token : Token} (closes : token.is .endloop = true) :
    isLoopMark token = true := by
  simp [isLoopMark, closes]

theorem is_loop_eq_false {token : Token} (closes : token.is .endloop = true) :
    token.is .loop = false :=
  Token.is_eq_false_of_is closes (by decide)

theorem expandLoops_cons {token : Token} (plain : isLoopMark token = false)
    (others : List Token) :
    expandLoops (token :: others) = do
      let following ← expandLoops others
      return token :: following := by
  simp only [expandLoops, Runs.cut_cons_of_plain plain]
  cases unrollRuns (Runs.cut isLoopMark others).later with
  | error fault => rfl
  | ok following => rfl

/-- A loop is cut into two marks, for the closing word is a mark too.  What follows the
loop is the run behind it. -/
theorem cut_loop_append {opening count closing : Token} {body : List Token}
    (wellFormed : (Piece.loop opening count body closing).WellFormed)
    (others : List Token) :
    Runs.cut isLoopMark ((Piece.loop opening count body closing).tokens ++ others) =
      ⟨[], (opening, count :: body) :: (closing, (Runs.cut isLoopMark others).first) ::
        (Runs.cut isLoopMark others).later⟩ := by
  rcases wellFormed with ⟨opens, closes, plain, _⟩
  have inside := Runs.cut_append plain (closing :: others)
  rw [Runs.cut_cons_of_mark (isLoopMark_of_endloop closes), List.append_nil] at inside
  simp only [Piece.tokens, List.cons_append, List.append_assoc, List.nil_append] at inside ⊢
  rw [Runs.cut_cons_of_mark (isLoopMark_of_loop opens), inside]

/-- A loop is replaced by the copies of its inside. -/
theorem expandLoops_loop {opening count closing : Token} {body : List Token}
    (wellFormed : (Piece.loop opening count body closing).WellFormed)
    (others : List Token) :
    expandLoops ((Piece.loop opening count body closing).tokens ++ others) = do
      let following ← expandLoops others
      return (Piece.loop opening count body closing).expanded ++ following := by
  have whole := cut_loop_append wellFormed others
  rcases wellFormed with ⟨opens, closes, plain, number, read, enough⟩
  have unrolled : unroll opening (count :: body) = .ok (copies number body) := by
    rw [unroll, show Numeral.natural? Numeral.bound64 count.text = some number from read]
    exact if_neg (Nat.not_lt.2 enough)
  simp only [expandLoops, whole, unrollRuns, opens, is_loop_eq_false closes, unrolled,
    Piece.expanded, read]
  cases unrollRuns (Runs.cut isLoopMark others).later with
  | error fault => rfl
  | ok following => simp

/-- Pieces are expanded one by one. -/
theorem expandLoops_append {piece : Piece} (wellFormed : piece.WellFormed)
    (others : List Token) :
    expandLoops (piece.tokens ++ others) = do
      let following ← expandLoops others
      return piece.expanded ++ following := by
  cases piece with
  | word token => exact expandLoops_cons wellFormed others
  | loop opening count body closing => exact expandLoops_loop wellFormed others

/-- Pieces are expanded to what they stand for, whatever follows them. -/
theorem expandLoops_flatMap_append {pieces : List Piece}
    (wellFormed : ∀ piece ∈ pieces, piece.WellFormed) (others : List Token) :
    expandLoops (pieces.flatMap Piece.tokens ++ others) = do
      let following ← expandLoops others
      return pieces.flatMap Piece.expanded ++ following := by
  induction pieces with
  | nil => simp only [List.flatMap_nil, List.nil_append, bind_pure]
  | cons piece later ih =>
      rcases List.forall_mem_cons.1 wellFormed with ⟨pieceIs, laterAre⟩
      rw [List.flatMap_cons, List.append_assoc, expandLoops_append pieceIs, ih laterAre]
      simp only [List.flatMap_cons, List.append_assoc, bind_assoc, pure_bind]

/-- A body of pieces is expanded to what the pieces stand for. -/
theorem expandLoops_flatMap {pieces : List Piece}
    (wellFormed : ∀ piece ∈ pieces, piece.WellFormed) :
    expandLoops (pieces.flatMap Piece.tokens) = .ok (pieces.flatMap Piece.expanded) := by
  have nothing : expandLoops [] = .ok [] := rfl
  have whole := expandLoops_flatMap_append wellFormed []
  rwa [nothing, ok_bind, pure_eq_ok, List.append_nil, List.append_nil] at whole

/-! ## Bodies that can be expanded -/

theorem is_endloop_of_isLoopMark {token : Token} (marked : isLoopMark token = true)
    (closed : token.is .loop = false) : token.is .endloop = true := by
  simpa [isLoopMark, closed] using marked

/-- A loop is unrolled exactly when a count of at least two comes first in it. -/
theorem unroll_eq_ok {opening : Token} {inside unrolled : List Token} :
    unroll opening inside = .ok unrolled ↔
      ∃ count body number, inside = count :: body ∧ Piece.number? count = some number ∧
        2 ≤ number ∧ unrolled = copies number body := by
  cases inside with
  | nil => simp [unroll]
  | cons count body =>
      cases read : Piece.number? count with
      | none =>
          have missing : Numeral.natural? Numeral.bound64 count.text = none := read
          simp [unroll, missing, read]
      | some number =>
          have found : Numeral.natural? Numeral.bound64 count.text = some number := read
          by_cases few : number < 2
          · simp [unroll, found, read, few, Nat.not_le_of_lt few]
          · simp [unroll, found, read, few, Nat.le_of_not_lt few, eq_comm]

theorem flatMap_tokens_map_word (tokens : List Token) :
    (tokens.map Piece.word).flatMap Piece.tokens = tokens := by
  simp [List.flatMap_map, Piece.tokens]

theorem flatMap_expanded_map_word (tokens : List Token) :
    (tokens.map Piece.word).flatMap Piece.expanded = tokens := by
  simp [List.flatMap_map, Piece.expanded]

theorem wellFormed_of_mem_map_word {tokens : List Token}
    (plain : ∀ token ∈ tokens, isLoopMark token = false) :
    ∀ piece ∈ tokens.map Piece.word, piece.WellFormed := by
  intro piece member
  rcases List.mem_map.1 member with ⟨token, among, rfl⟩
  exact plain token among

/-- A loop can be put in front of pieces, with words outside all loops between them. -/
theorem wellFormed_of_mem_loop_append {opening count closing : Token}
    {body outside : List Token} {pieces : List Piece}
    (looped : (Piece.loop opening count body closing).WellFormed)
    (plain : ∀ token ∈ outside, isLoopMark token = false)
    (wellFormed : ∀ piece ∈ pieces, piece.WellFormed) :
    ∀ piece ∈ Piece.loop opening count body closing :: (outside.map .word ++ pieces),
      piece.WellFormed :=
  List.forall_mem_cons.2 ⟨looped,
    List.forall_mem_append.2 ⟨wellFormed_of_mem_map_word plain, wellFormed⟩⟩

/-- Marks and runs that are unrolled come from pieces. -/
theorem exists_pieces_of_unrollRuns {runs : List (Token × List Token)}
    {expanded : List Token} (marks : ∀ run ∈ runs, isLoopMark run.1 = true)
    (plain : ∀ run ∈ runs, ∀ token ∈ run.2, isLoopMark token = false)
    (unrolled : unrollRuns runs = .ok expanded) :
    ∃ pieces : List Piece, (∀ piece ∈ pieces, piece.WellFormed) ∧
      (runs.flatMap fun (mark, run) => mark :: run) = pieces.flatMap Piece.tokens ∧
      expanded = pieces.flatMap Piece.expanded := by
  fun_induction unrollRuns runs generalizing expanded with
  | case1 =>
      cases unrolled
      exact ⟨[], List.forall_mem_nil _, rfl, rfl⟩
  | case2 => cases unrolled
  | case3 => cases unrolled
  | case4 => cases unrolled
  | case5 opening inside opens closing outside others closes ih =>
      have opens : opening.is .loop = true := by simpa using opens
      have closes : closing.is .loop = false := Bool.eq_false_iff.2 closes
      rcases List.forall_mem_cons.1 marks with ⟨_, marks⟩
      rcases List.forall_mem_cons.1 marks with ⟨marked, othersMarks⟩
      rcases List.forall_mem_cons.1 plain with ⟨insidePlain, plain⟩
      rcases List.forall_mem_cons.1 plain with ⟨outsidePlain, othersPlain⟩
      rcases bind_eq_ok.1 unrolled with ⟨repeated, unrollFirst, unrolled⟩
      rcases bind_eq_ok.1 unrolled with ⟨following, unrollOthers, final⟩
      cases final
      rcases unroll_eq_ok.1 unrollFirst with ⟨count, body, number, rfl, read, enough, rfl⟩
      rcases ih othersMarks othersPlain unrollOthers with ⟨pieces, wellFormed, whole, rfl⟩
      have looped : (Piece.loop opening count body closing).WellFormed :=
        ⟨opens, is_endloop_of_isLoopMark marked closes, insidePlain, number, read, enough⟩
      refine ⟨.loop opening count body closing :: (outside.map .word ++ pieces),
        wellFormed_of_mem_loop_append looped outsidePlain wellFormed, ?_, ?_⟩
      · simp only [List.flatMap_cons, List.flatMap_append, flatMap_tokens_map_word, whole,
          Piece.tokens, List.cons_append, List.append_assoc, List.nil_append]
      · simp only [List.flatMap_cons, List.flatMap_append, flatMap_expanded_map_word,
          Piece.expanded, read, Option.getD_some, List.append_assoc]

/-- A body is expanded exactly when it is written in pieces, and then to what the pieces
stand for. -/
theorem expandLoops_eq_ok {tokens expanded : List Token} :
    expandLoops tokens = .ok expanded ↔
      ∃ pieces : List Piece, (∀ piece ∈ pieces, piece.WellFormed) ∧
        tokens = pieces.flatMap Piece.tokens ∧ expanded = pieces.flatMap Piece.expanded := by
  constructor
  · intro expand
    rcases bind_eq_ok.1 expand with ⟨following, unrolled, final⟩
    cases final
    have cut := Runs.wellCut_cut isLoopMark tokens
    rcases exists_pieces_of_unrollRuns cut.isMark_mark cut.run_plain unrolled with
      ⟨pieces, wellFormed, whole, rfl⟩
    refine ⟨(Runs.cut isLoopMark tokens).first.map .word ++ pieces, ?_, ?_, ?_⟩
    · exact List.forall_mem_append.2 ⟨wellFormed_of_mem_map_word cut.first_plain, wellFormed⟩
    · rw [List.flatMap_append, flatMap_tokens_map_word, ← whole]
      exact (Runs.toList_cut isLoopMark tokens).symm
    · rw [List.flatMap_append, flatMap_expanded_map_word]
  · intro written
    rcases written with ⟨pieces, wellFormed, rfl, rfl⟩
    exact expandLoops_flatMap wellFormed

end Score

end ScoreSynth
