import ScoreSynth.Proofs.Score.Loops
import ScoreSynth.Proofs.Text.Numeral
import ScoreSynth.Token.Scan

/-!
# The grammar of loops

The bodies that can be expanded are described by a grammar that says at the same time what
they are expanded to (`Score.Expands`).  In a body that it does not describe, some word
that opens or closes a loop is to blame (`Score.Offends`): the words before it are the
longest part of the body, from its beginning, that can be expanded, and the fault says what
is wrong with the loop.  A loop that opens inside another one is reported before anything
is said about a count, and a loop that is never closed before anything behind it.
-/

namespace ScoreSynth.Score

open Stepwise

/-- Which bodies can be expanded, and to what.  A word outside all loops stands for itself,
and a loop stands for as many copies of its inside as its count spells. -/
inductive Expands : List Token → List Token → Prop
  | nil : Expands [] []
  | word {token : Token} {others expanded : List Token}
      (plain : isLoopMark token = false) (rest : Expands others expanded) :
      Expands (token :: others) (token :: expanded)
  | loop {opening count closing : Token} {body others expanded : List Token} {number : Nat}
      (opens : opening.is .loop = true) (closes : closing.is .endloop = true)
      (plain : ∀ token ∈ count :: body, isLoopMark token = false)
      (spelled : Numeral.Spells count.text number) (enough : 2 ≤ number)
      (fits : number < Numeral.bound64) (rest : Expands others expanded) :
      Expands (opening :: count :: body ++ closing :: others)
        ((List.replicate number body).flatten ++ expanded)

/-- What is wrong with the count of a loop, given the words inside. -/
inductive Miscounts (opening : Token) : List Token → Fault → Prop
  | missing : Miscounts opening [] (.badCount opening.line .missing)
  | unreadable {count : Token} (body : List Token)
      (illegible : ∀ number, Numeral.Spells count.text number → Numeral.bound64 ≤ number) :
      Miscounts opening (count :: body) (.badCount count.line (.unreadable count.text))
  | tooSmall {count : Token} (body : List Token) {number : Nat}
      (spelled : Numeral.Spells count.text number) (few : number < 2) :
      Miscounts opening (count :: body) (.badCount count.line .tooSmall)

/-- What is wrong with a word that opens or closes a loop, given the words behind it. -/
inductive Offends (offending : Token) : List Token → Fault → Prop
  /-- A loop is closed that has not been opened. -/
  | stray (rest : List Token) (closes : offending.is .endloop = true) :
      Offends offending rest (.malformed offending.line .strayLoopEnd)
  | unclosed {rest : List Token} (opens : offending.is .loop = true)
      (plain : ∀ token ∈ rest, isLoopMark token = false) :
      Offends offending rest (.malformed offending.line .openLoop)
  | nested {inside : List Token} {inner : Token} (after : List Token)
      (opens : offending.is .loop = true)
      (plain : ∀ token ∈ inside, isLoopMark token = false)
      (again : inner.is .loop = true) :
      Offends offending (inside ++ inner :: after) (.nestedLoop inner.line)
  | miscounted {inside : List Token} {closing : Token} (after : List Token) {fault : Fault}
      (opens : offending.is .loop = true)
      (plain : ∀ token ∈ inside, isLoopMark token = false)
      (closes : closing.is .endloop = true) (wrong : Miscounts offending inside fault) :
      Offends offending (inside ++ closing :: after) fault

/-! ## Bodies of the grammar -/

/-- The grammar describes the bodies that can be expanded. -/
theorem expandLoops_eq_ok_iff_expands {tokens expanded : List Token} :
    expandLoops tokens = .ok expanded ↔ Expands tokens expanded := by
  constructor
  · intro expand
    rcases expandLoops_eq_ok.1 expand with ⟨pieces, wellFormed, rfl, rfl⟩
    clear expand
    induction pieces with
    | nil => exact .nil
    | cons piece others ih =>
        rcases List.forall_mem_cons.1 wellFormed with ⟨pieceIs, othersAre⟩
        cases piece with
        | word token => exact .word pieceIs (ih othersAre)
        | loop opening count body closing =>
            rcases pieceIs with ⟨opens, closes, plain, number, read, enough⟩
            rcases Numeral.natural?_eq_some_iff.1 read with ⟨spelled, fits⟩
            have looped := Expands.loop opens closes plain spelled enough fits (ih othersAre)
            simpa [Piece.tokens, Piece.expanded, read] using looped
  · intro expands
    induction expands with
    | nil => rfl
    | word plain rest ih =>
        rw [expandLoops_cons plain, ih]
        rfl
    | @loop opening count closing body others expanded number opens closes plain spelled
        enough fits rest ih =>
        have read : Piece.number? count = some number :=
          Numeral.natural?_eq_some_iff.2 ⟨spelled, fits⟩
        have wellFormed : (Piece.loop opening count body closing).WellFormed :=
          ⟨opens, closes, plain, number, read, enough⟩
        have looped := expandLoops_loop wellFormed others
        rw [ih] at looped
        simpa [Piece.tokens, Piece.expanded, read] using looped

/-! ## Words to blame -/

/-- A loop that is opened ends with the first mark behind it, which has to close it. -/
theorem expandLoops_opening {opening mark : Token} {inside : List Token}
    (opens : opening.is .loop = true) (plain : ∀ token ∈ inside, isLoopMark token = false)
    (marked : isLoopMark mark = true) (after : List Token) :
    expandLoops (opening :: (inside ++ mark :: after)) =
      if mark.is .loop then .error (.nestedLoop mark.line)
      else do
        let unrolled ← unroll opening inside
        let following ← expandLoops after
        return unrolled ++ following := by
  have cut := Runs.cut_append plain (mark :: after)
  rw [Runs.cut_cons_of_mark marked, List.append_nil] at cut
  simp only [expandLoops, Runs.cut_cons_of_mark (isLoopMark_of_loop opens), cut, unrollRuns,
    opens, Bool.not_true, Bool.false_eq_true, if_false, List.nil_append]
  split
  · rfl
  · simp only [bind_assoc, pure_bind, List.append_assoc]

/-- A loop cannot be unrolled exactly when something is wrong with its count. -/
theorem unroll_eq_error {opening : Token} {inside : List Token} {fault : Fault} :
    unroll opening inside = .error fault ↔ Miscounts opening inside fault := by
  cases inside with
  | nil =>
      constructor
      · intro failed
        cases failed
        exact .missing
      · intro wrong
        cases wrong
        rfl
  | cons count body =>
      rw [unroll]
      constructor
      · intro failed
        split at failed
        · next missing =>
            cases failed
            refine .unreadable body fun number spelled => Nat.le_of_not_lt fun fits => ?_
            rw [Numeral.natural?_eq_some_iff.2 ⟨spelled, fits⟩] at missing
            cases missing
        · next number read =>
            split at failed
            · next few =>
                cases failed
                exact .tooSmall body (Numeral.natural?_eq_some_iff.1 read).1 few
            · cases failed
      · intro wrong
        cases wrong with
        | unreadable body illegible =>
            have missing : Numeral.natural? Numeral.bound64 count.text = none := by
              refine Option.eq_none_iff_forall_ne_some.2 fun number read => ?_
              rcases Numeral.natural?_eq_some_iff.1 read with ⟨spelled, fits⟩
              exact Nat.not_lt_of_le (illegible number spelled) fits
            rw [missing]
        | @tooSmall _ body number spelled few =>
            have fits : number < Numeral.bound64 := Nat.lt_trans few (by decide)
            rw [Numeral.natural?_eq_some_iff.2 ⟨spelled, fits⟩]
            exact if_pos few

/-- A body that begins with a word to blame cannot be expanded. -/
theorem Offends.expandLoops {offending : Token} {rest : List Token} {fault : Fault}
    (offends : Offends offending rest fault) :
    Score.expandLoops (offending :: rest) = .error fault := by
  cases offends with
  | stray rest closes =>
      have closed := is_loop_eq_false closes
      simp only [Score.expandLoops, Runs.cut_cons_of_mark (isLoopMark_of_endloop closes)]
      cases (Runs.cut isLoopMark rest).later <;> simp [unrollRuns, closed]
  | unclosed opens plain =>
      have cut := Runs.cut_append plain []
      rw [List.append_nil, Runs.cut_nil, List.append_nil] at cut
      simp only [Score.expandLoops, Runs.cut_cons_of_mark (isLoopMark_of_loop opens), cut,
        unrollRuns, opens]
      rfl
  | nested after opens plain again =>
      rw [expandLoops_opening opens plain (isLoopMark_of_loop again), if_pos again]
  | miscounted after opens plain closes wrong =>
      rw [expandLoops_opening opens plain (isLoopMark_of_endloop closes),
        if_neg (Bool.eq_false_iff.1 (is_loop_eq_false closes)), unroll_eq_error.2 wrong,
        error_bind]

/-- Marks and runs that cannot be unrolled are pieces up to some mark that is to blame. -/
theorem exists_offends_of_unrollRuns {runs : List (Token × List Token)} {fault : Fault}
    (marks : ∀ run ∈ runs, isLoopMark run.1 = true)
    (plain : ∀ run ∈ runs, ∀ token ∈ run.2, isLoopMark token = false)
    (failed : unrollRuns runs = .error fault) :
    ∃ (pieces : List Piece) (offending : Token) (rest : List Token),
      (∀ piece ∈ pieces, piece.WellFormed) ∧
      (runs.flatMap fun (mark, run) => mark :: run) =
        pieces.flatMap Piece.tokens ++ offending :: rest ∧
      Offends offending rest fault := by
  fun_induction unrollRuns runs with
  | case1 => cases failed
  | case2 mark inside others stray =>
      cases failed
      have closed : mark.is .loop = false := by simpa using stray
      have closes := is_endloop_of_isLoopMark (List.forall_mem_cons.1 marks).1 closed
      exact ⟨[], mark, _, List.forall_mem_nil _, rfl, .stray _ closes⟩
  | case3 mark inside opens =>
      cases failed
      refine ⟨[], mark, inside ++ [], List.forall_mem_nil _, rfl, ?_⟩
      rw [List.append_nil]
      exact .unclosed (by simpa using opens) (List.forall_mem_cons.1 plain).1
  | case4 mark inside opens next outside others again =>
      cases failed
      refine ⟨[], mark, _, List.forall_mem_nil _, rfl, ?_⟩
      exact .nested _ (by simpa using opens) (List.forall_mem_cons.1 plain).1 again
  | case5 opening inside opens closing outside others closed ih =>
      have opens : opening.is .loop = true := by simpa using opens
      have closed : closing.is .loop = false := Bool.eq_false_iff.2 closed
      rcases List.forall_mem_cons.1 marks with ⟨_, marks⟩
      rcases List.forall_mem_cons.1 marks with ⟨marked, othersMarks⟩
      rcases List.forall_mem_cons.1 plain with ⟨insidePlain, plain⟩
      rcases List.forall_mem_cons.1 plain with ⟨outsidePlain, othersPlain⟩
      have closes := is_endloop_of_isLoopMark marked closed
      rcases bind_eq_error.1 failed with wrong | ⟨unrolled, unrollFirst, failed⟩
      · refine ⟨[], opening, _, List.forall_mem_nil _, rfl, ?_⟩
        exact .miscounted _ opens insidePlain closes (unroll_eq_error.1 wrong)
      -- The loop is all right, so the word to blame stands behind what follows the loop.
      rcases bind_eq_error.1 failed with later | ⟨following, _, impossible⟩
      · rcases unroll_eq_ok.1 unrollFirst with ⟨count, body, number, rfl, read, enough, rfl⟩
        rcases ih othersMarks othersPlain later with
          ⟨pieces, offending, rest, wellFormed, whole, offends⟩
        have looped : (Piece.loop opening count body closing).WellFormed :=
          ⟨opens, closes, insidePlain, number, read, enough⟩
        refine ⟨.loop opening count body closing :: (outside.map .word ++ pieces), offending,
          rest, wellFormed_of_mem_loop_append looped outsidePlain wellFormed, ?_, offends⟩
        simp only [List.flatMap_cons, List.flatMap_append, flatMap_tokens_map_word, whole,
          Piece.tokens, List.cons_append, List.append_assoc, List.nil_append]
      · cases impossible

/-- A body that cannot be expanded is one that can, up to some word that is to blame. -/
theorem exists_offends_of_expandLoops {tokens : List Token} {fault : Fault}
    (failed : expandLoops tokens = .error fault) :
    ∃ (pieces : List Piece) (offending : Token) (rest : List Token),
      (∀ piece ∈ pieces, piece.WellFormed) ∧
      tokens = pieces.flatMap Piece.tokens ++ offending :: rest ∧
      Offends offending rest fault := by
  rcases bind_eq_error.1 failed with failed | ⟨following, _, impossible⟩
  · have cut := Runs.wellCut_cut isLoopMark tokens
    rcases exists_offends_of_unrollRuns cut.isMark_mark cut.run_plain failed with
      ⟨pieces, offending, rest, wellFormed, whole, offends⟩
    refine ⟨(Runs.cut isLoopMark tokens).first.map .word ++ pieces, offending, rest, ?_, ?_,
      offends⟩
    · exact List.forall_mem_append.2 ⟨wellFormed_of_mem_map_word cut.first_plain, wellFormed⟩
    · rw [List.flatMap_append, flatMap_tokens_map_word, List.append_assoc, ← whole]
      exact (Runs.toList_cut isLoopMark tokens).symm
  · cases impossible

/-- A word stays to blame, perhaps for something else, if less follows it. -/
theorem Offends.exists_of_prefix {offending : Token} {rest less : List Token} {fault : Fault}
    (offends : Offends offending rest fault) (begins : less <+: rest) :
    ∃ other, Offends offending less other := by
  -- Without the mark that ends it, a loop is not closed.
  have cut {inside after : List Token} {mark : Token} (opens : offending.is .loop = true)
      (plain : ∀ token ∈ inside, isLoopMark token = false)
      (short : less <+: inside ++ mark :: after)
      (reaches : ∀ more, ∃ other, Offends offending (inside ++ mark :: more) other) :
      ∃ other, Offends offending less other := by
    rcases Runs.prefix_append_cons short with within | ⟨more, _, rfl⟩
    · exact ⟨_, .unclosed opens fun token member => plain token (within.subset member)⟩
    · exact reaches more
  cases offends with
  | stray rest closes => exact ⟨_, .stray less closes⟩
  | unclosed opens plain =>
      exact ⟨_, .unclosed opens fun token member => plain token (begins.subset member)⟩
  | nested after opens plain again =>
      exact cut opens plain begins fun more => ⟨_, .nested more opens plain again⟩
  | miscounted after opens plain closes wrong =>
      exact cut opens plain begins fun more => ⟨_, .miscounted more opens plain closes wrong⟩

/-- No part of a body that reaches beyond a word to blame can be expanded. -/
theorem Offends.prefix_of_expandLoops {pieces : List Piece} {offending : Token}
    {rest long expanded : List Token} {fault : Fault}
    (offends : Offends offending rest fault)
    (wellFormed : ∀ piece ∈ pieces, piece.WellFormed)
    (begins : long <+: pieces.flatMap Piece.tokens ++ offending :: rest)
    (expand : Score.expandLoops long = .ok expanded) :
    long <+: pieces.flatMap Piece.tokens := by
  rcases Runs.prefix_append_cons begins with within | ⟨more, further, rfl⟩
  · exact within
  · rcases offends.exists_of_prefix further with ⟨other, still⟩
    rw [expandLoops_flatMap_append wellFormed, still.expandLoops, error_bind] at expand
    cases expand

/-- The grammar says which bodies can be expanded, and to what.  A body fails with a fault
exactly when some word is to blame for it and the words before that word can be expanded;
they are then the longest part of the body, from its beginning, that can be. -/
theorem expandLoops_grammar (tokens : List Token) :
    (∀ expanded, expandLoops tokens = .ok expanded ↔ Expands tokens expanded) ∧
    (∀ fault, expandLoops tokens = .error fault ↔
      ∃ before offending rest, tokens = before ++ offending :: rest ∧
        (∃ expanded, Expands before expanded) ∧
        (∀ long expanded, long <+: tokens → Expands long expanded → long <+: before) ∧
        Offends offending rest fault) := by
  refine ⟨fun expanded => expandLoops_eq_ok_iff_expands, fun fault => ?_⟩
  constructor
  · intro failed
    rcases exists_offends_of_expandLoops failed with
      ⟨pieces, offending, rest, wellFormed, rfl, offends⟩
    have expand := expandLoops_flatMap wellFormed
    refine ⟨_, offending, rest, rfl, ⟨_, expandLoops_eq_ok_iff_expands.1 expand⟩, ?_, offends⟩
    intro long expanded begins expands
    exact offends.prefix_of_expandLoops wellFormed begins
      (expandLoops_eq_ok_iff_expands.2 expands)
  · intro blamed
    rcases blamed with ⟨before, offending, rest, rfl, ⟨expanded, expands⟩, _, offends⟩
    rcases expandLoops_eq_ok.1 (expandLoops_eq_ok_iff_expands.2 expands) with
      ⟨pieces, wellFormed, rfl, _⟩
    rw [expandLoops_flatMap_append wellFormed, offends.expandLoops, error_bind]

/-- Behind a loop that is all right, one opens inside another whose count is no number: the
inner one is reported, not the count. -/
example : expandLoops (Token.ofLine 3 0 "loop +2 A4,1 endloop".toList ++
    Token.ofLine 4 0 "loop A4,1".toList ++ Token.ofLine 5 0 "loop 2 endloop".toList) =
      .error (.nestedLoop 5) := by
  decide +kernel

end ScoreSynth.Score
