import ScoreSynth.Proofs.Score.Loops

/-!
# Loops replaced in place

The loops of a body can also be expanded one at a time: a loop, wherever it stands, is
replaced by as many copies of its inside as its count says, and what stands around it is
left alone.  Every such step takes one loop away and keeps the result of expanding the
whole body.  So it does not matter in which order the loops are replaced: there are as many
steps as there are loops, and the last one leaves the expanded body
(`Score.rewritesIn_expandLoops`).
-/

namespace ScoreSynth

namespace Score

/-- One loop of a body, wherever it stands, is replaced by the copies of its inside. -/
inductive Rewrites : List Token → List Token → Prop
  | replace (before after : List Token) {opening count closing : Token}
      {body : List Token} {number : Nat}
      (opens : opening.is .loop = true) (closes : closing.is .endloop = true)
      (plain : ∀ token ∈ count :: body, isLoopMark token = false)
      (read : Numeral.natural? Numeral.bound64 count.text = some number)
      (enough : 2 ≤ number) :
      Rewrites (before ++ opening :: count :: body ++ closing :: after)
        (before ++ (List.replicate number body).flatten ++ after)

/-- Loops are replaced one after the other, in any order, in a number of steps. -/
inductive RewritesIn : Nat → List Token → List Token → Prop
  | refl (tokens : List Token) : RewritesIn 0 tokens tokens
  | step {steps : Nat} {tokens next reached : List Token} :
      Rewrites tokens next → RewritesIn steps next reached →
      RewritesIn (steps + 1) tokens reached

/-- How many words of a body open a loop. -/
def numberOfLoops (tokens : List Token) : Nat :=
  tokens.countP (·.is .loop)

/-- A step replaces a piece that is a loop, and leaves alone what stands around it. -/
theorem rewrites_iff {tokens next : List Token} :
    Rewrites tokens next ↔ ∃ before opening count body closing after,
      (Piece.loop opening count body closing).WellFormed ∧
      tokens = before ++ ((Piece.loop opening count body closing).tokens ++ after) ∧
      next = before ++ ((Piece.loop opening count body closing).expanded ++ after) := by
  constructor
  · intro rewrites
    cases rewrites with
    | @replace before after opening count closing body number opens closes plain read enough =>
        refine ⟨before, opening, count, body, closing, after,
          ⟨opens, closes, plain, number, read, enough⟩, ?_, ?_⟩
        · simp [Piece.tokens]
        · simp [Piece.expanded, Piece.number?, read]
  · intro replaced
    rcases replaced with ⟨before, opening, count, body, closing, after,
      ⟨opens, closes, plain, number, read, enough⟩, rfl, rfl⟩
    have replaced := Rewrites.replace before after opens closes plain read enough
    simpa [Piece.tokens, Piece.expanded, read] using replaced

/-! ## Fewer loops with every step -/

@[simp] theorem numberOfLoops_append (before after : List Token) :
    numberOfLoops (before ++ after) = numberOfLoops before + numberOfLoops after :=
  List.countP_append

theorem numberOfLoops_eq_zero {tokens : List Token}
    (plain : ∀ token ∈ tokens, isLoopMark token = false) : numberOfLoops tokens = 0 := by
  apply List.countP_eq_zero.2
  intro token member opens
  have marked := isLoopMark_of_loop opens
  rw [plain token member] at marked
  cases marked

/-- What a piece stands for holds no word of a loop. -/
theorem Piece.WellFormed.expanded_plain {piece : Piece} (wellFormed : piece.WellFormed) :
    ∀ token ∈ piece.expanded, isLoopMark token = false := by
  intro token member
  cases piece with
  | word word =>
      rw [List.mem_singleton.1 member]
      exact wellFormed
  | loop opening count body closing =>
      have inside := copies_subset _ body member
      exact wellFormed.2.2.1 token (List.mem_cons_of_mem count inside)

theorem numberOfLoops_loop {opening count closing : Token} {body : List Token}
    (wellFormed : (Piece.loop opening count body closing).WellFormed) :
    numberOfLoops (Piece.loop opening count body closing).tokens = 1 := by
  rcases wellFormed with ⟨opens, closes, plain, _⟩
  have inside := numberOfLoops_eq_zero plain
  have closed := is_loop_eq_false closes
  rw [Piece.tokens, List.cons_append, List.cons_append, numberOfLoops, List.countP_cons,
    ← List.cons_append, List.countP_append]
  rw [numberOfLoops] at inside
  simp [inside, opens, closed]

/-- A step takes one loop away, and makes no other. -/
theorem numberOfLoops_of_rewrites {tokens next : List Token}
    (rewrites : Rewrites tokens next) : numberOfLoops tokens = numberOfLoops next + 1 := by
  rcases rewrites_iff.1 rewrites with
    ⟨before, opening, count, body, closing, after, looped, rfl, rfl⟩
  simp only [numberOfLoops_append, numberOfLoops_loop looped,
    numberOfLoops_eq_zero looped.expanded_plain]
  omega

/-! ## The same result with every step -/

theorem Piece.tokens_loop_append (opening count : Token) (body : List Token) (closing : Token)
    (after : List Token) :
    (loop opening count body closing).tokens ++ after =
      opening :: ((count :: body) ++ closing :: after) := by
  simp [tokens]

/-- A loop that stands in what begins with a piece is that piece, or stands behind it. -/
theorem Piece.WellFormed.eq_or_exists_of_tokens_append_eq {piece : Piece}
    {rest before after : List Token} {opening count closing : Token} {body : List Token}
    (wellFormed : piece.WellFormed)
    (looped : (Piece.loop opening count body closing).WellFormed)
    (whole : piece.tokens ++ rest =
      before ++ ((Piece.loop opening count body closing).tokens ++ after)) :
    (before = [] ∧ piece = .loop opening count body closing ∧ rest = after) ∨
      ∃ between, before = piece.tokens ++ between ∧
        rest = between ++ ((Piece.loop opening count body closing).tokens ++ after) := by
  have opens := isLoopMark_of_loop looped.1
  have closes := isLoopMark_of_endloop looped.2.1
  cases piece with
  | word token =>
      cases before with
      | nil =>
          rcases List.cons.inj whole with ⟨rfl, _⟩
          rw [wellFormed] at opens
          cases opens
      | cons first between =>
          rcases List.cons.inj whole with ⟨rfl, behind⟩
          exact .inr ⟨between, rfl, behind⟩
  | loop start number inside ending =>
      rcases wellFormed with ⟨_, ends, plain, _⟩
      rw [Piece.tokens_loop_append, Piece.tokens_loop_append] at whole
      cases before with
      | nil =>
          rcases List.cons.inj whole with ⟨rfl, same⟩
          -- Either loop ends with the first mark behind its opening, so both end together.
          rcases Runs.eq_or_exists_of_append_cons_eq plain closes same with
            ⟨inner, rfl, rfl⟩ | ⟨between, longer, _⟩
          · rcases List.cons.inj inner with ⟨rfl, rfl⟩
            exact .inl ⟨rfl, rfl, rfl⟩
          · have ended := looped.2.2.1 ending (by simp [longer])
            rw [isLoopMark_of_endloop ends] at ended
            cases ended
      | cons first left =>
          rcases List.cons.inj whole with ⟨rfl, same⟩
          rcases Runs.eq_or_exists_of_append_cons_eq plain opens same with
            ⟨_, rfl, _⟩ | ⟨between, rfl, behind⟩
          · have opened := looped.1
            rw [is_loop_eq_false ends] at opened
            cases opened
          · refine .inr ⟨between, (Piece.tokens_loop_append ..).symm, ?_⟩
            rw [Piece.tokens_loop_append]
            exact behind

/-- A loop that stands anywhere in a body of pieces is one of the pieces. -/
theorem exists_pieces_around {pieces : List Piece} {before after : List Token}
    {opening count closing : Token} {body : List Token}
    (wellFormed : ∀ piece ∈ pieces, piece.WellFormed)
    (looped : (Piece.loop opening count body closing).WellFormed)
    (whole : pieces.flatMap Piece.tokens =
      before ++ ((Piece.loop opening count body closing).tokens ++ after)) :
    ∃ earlier later, pieces = earlier ++ Piece.loop opening count body closing :: later ∧
      before = earlier.flatMap Piece.tokens ∧ after = later.flatMap Piece.tokens := by
  induction pieces generalizing before with
  | nil => simp [Piece.tokens] at whole
  | cons piece others ih =>
      rcases List.forall_mem_cons.1 wellFormed with ⟨pieceIs, othersAre⟩
      rcases pieceIs.eq_or_exists_of_tokens_append_eq looped whole with
        ⟨rfl, rfl, rfl⟩ | ⟨between, rfl, behind⟩
      · exact ⟨[], others, rfl, rfl, rfl⟩
      · rcases ih othersAre behind with ⟨earlier, later, rfl, rfl, rfl⟩
        exact ⟨piece :: earlier, later, rfl, rfl, rfl⟩

/-- A step does not change what a body is expanded to. -/
theorem expandLoops_of_rewrites {tokens next expanded : List Token}
    (rewrites : Rewrites tokens next) (expand : expandLoops tokens = .ok expanded) :
    expandLoops next = .ok expanded := by
  rcases rewrites_iff.1 rewrites with
    ⟨before, opening, count, body, closing, after, looped, rfl, rfl⟩
  rcases expandLoops_eq_ok.1 expand with ⟨pieces, wellFormed, whole, rfl⟩
  rcases exists_pieces_around wellFormed looped whole.symm with ⟨earlier, later, rfl, rfl, rfl⟩
  rcases List.forall_mem_append.1 wellFormed with ⟨earlierAre, laterAre⟩
  let copied := (Piece.loop opening count body closing).expanded
  refine expandLoops_eq_ok.2 ⟨earlier ++ (copied.map .word ++ later), ?_, ?_, ?_⟩
  · refine List.forall_mem_append.2 ⟨earlierAre, List.forall_mem_append.2 ⟨?_, ?_⟩⟩
    · exact wellFormed_of_mem_map_word looped.expanded_plain
    · exact (List.forall_mem_cons.1 laterAre).2
  · simp only [List.flatMap_append, flatMap_tokens_map_word, copied]
  · simp only [List.flatMap_append, List.flatMap_cons, flatMap_expanded_map_word, copied]

/-- Expanding leaves no word of a loop. -/
theorem expandLoops_plain {tokens expanded : List Token}
    (expand : expandLoops tokens = .ok expanded) :
    ∀ token ∈ expanded, isLoopMark token = false := by
  rcases expandLoops_eq_ok.1 expand with ⟨pieces, wellFormed, rfl, rfl⟩
  intro token member
  rcases List.mem_flatMap.1 member with ⟨piece, among, inside⟩
  exact (wellFormed piece among).expanded_plain token inside

/-- A body without words of loops is expanded to itself. -/
theorem expandLoops_of_plain {tokens : List Token}
    (plain : ∀ token ∈ tokens, isLoopMark token = false) :
    expandLoops tokens = .ok tokens := by
  refine expandLoops_eq_ok.2 ⟨tokens.map .word, wellFormed_of_mem_map_word plain, ?_, ?_⟩
  · exact (flatMap_tokens_map_word tokens).symm
  · exact (flatMap_expanded_map_word tokens).symm

/-- A body that can be expanded either has a loop that can be replaced, or is what it is
expanded to. -/
theorem exists_rewrites_or_eq {tokens expanded : List Token}
    (expand : expandLoops tokens = .ok expanded) :
    (∃ next, Rewrites tokens next) ∨ tokens = expanded := by
  rcases expandLoops_eq_ok.1 expand with ⟨pieces, wellFormed, rfl, rfl⟩
  by_cases loops : ∃ opening count body closing, Piece.loop opening count body closing ∈ pieces
  · rcases loops with ⟨opening, count, body, closing, member⟩
    rcases List.append_of_mem member with ⟨earlier, later, rfl⟩
    have looped := wellFormed _ member
    refine .inl ⟨_, rewrites_iff.2 ⟨earlier.flatMap Piece.tokens, opening, count, body, closing,
      later.flatMap Piece.tokens, looped, ?_, rfl⟩⟩
    rw [List.flatMap_append, List.flatMap_cons]
  · right
    apply List.flatMap_congr
    intro piece member
    cases piece with
    | word token => rfl
    | loop opening count body closing =>
        exact absurd ⟨opening, count, body, closing, member⟩ loops

/-! ## Any number of steps -/

/-- What one step keeps is kept by any number of them, and each has taken a loop away. -/
theorem RewritesIn.expandLoops {steps : Nat} {tokens reached expanded : List Token}
    (rewriting : RewritesIn steps tokens reached)
    (expand : Score.expandLoops tokens = .ok expanded) :
    Score.expandLoops reached = .ok expanded ∧
      numberOfLoops tokens = numberOfLoops reached + steps := by
  induction rewriting with
  | refl tokens => exact ⟨expand, rfl⟩
  | step rewrites _ ih =>
      have fewer := numberOfLoops_of_rewrites rewrites
      rcases ih (expandLoops_of_rewrites rewrites expand) with ⟨same, loops⟩
      exact ⟨same, by omega⟩

/-- The loops of a body that can be expanded are replaced one by one, in any order.  As
long as fewer steps have been made than the body has loops, there is a further one.  After
that many steps there is none, and what has been reached is the body as it is expanded.
In it there is no word of a loop, and expanding it again does not change it. -/
theorem rewritesIn_expandLoops {tokens expanded : List Token}
    (expand : expandLoops tokens = .ok expanded) :
    (∀ steps reached, RewritesIn steps tokens reached →
      steps < numberOfLoops tokens ∧ (∃ next, Rewrites reached next) ∨
        steps = numberOfLoops tokens ∧ (∀ next, ¬ Rewrites reached next) ∧
          reached = expanded) ∧
    (∀ token ∈ expanded, token.is .loop = false ∧ token.is .endloop = false) ∧
    expandLoops expanded = .ok expanded := by
  have plain := expandLoops_plain expand
  refine ⟨?_, ?_, expandLoops_of_plain plain⟩
  · intro steps reached rewriting
    rcases rewriting.expandLoops expand with ⟨same, loops⟩
    rcases exists_rewrites_or_eq same with ⟨next, rewrites⟩ | rfl
    · have fewer := numberOfLoops_of_rewrites rewrites
      exact .inl ⟨by omega, next, rewrites⟩
    · have none := numberOfLoops_eq_zero plain
      refine .inr ⟨by omega, ?_, rfl⟩
      intro next rewrites
      have fewer := numberOfLoops_of_rewrites rewrites
      omega
  · intro token member
    simpa [isLoopMark] using plain token member

/-- A word, and a loop that begins on the same line. -/
def phrase : List Token :=
  [⟨"A4,100".toList, 4, 1⟩, ⟨"loop".toList, 4, 0⟩, ⟨"2".toList, 4, 0⟩,
   ⟨"B4,50".toList, 5, 0⟩, ⟨"endloop".toList, 5, 0⟩]

/-- The inside of a second loop. -/
def chorus : List Token :=
  [⟨"pause,5".toList, 9, 0⟩, ⟨"C5,5".toList, 9, 0⟩]

/-- A body with two loops, the second one below two empty lines. -/
def twoLoops : List Token :=
  phrase ++ ⟨"loop".toList, 8, 2⟩ :: ⟨"+3".toList, 8, 0⟩ :: chorus ++
    ⟨"endloop".toList, 9, 0⟩ :: []

/-- The second of two loops can be replaced first. -/
theorem rewritesIn_expandLoops_twoLoops :
    ∃ expanded reached, expandLoops twoLoops = .ok expanded ∧
      expanded.map (·.line) = [4, 5, 5, 9, 9, 9, 9, 9, 9] ∧
      RewritesIn 1 twoLoops reached ∧ (∃ next, Rewrites reached next) ∧
      ∀ final, RewritesIn 2 twoLoops final → final = expanded := by
  have expand : (expandLoops twoLoops).map (·.map (·.line)) =
      .ok [4, 5, 5, 9, 9, 9, 9, 9, 9] := by
    decide +kernel
  have loops : numberOfLoops twoLoops = 2 := by decide +kernel
  have second : Rewrites twoLoops (phrase ++ (List.replicate 3 chorus).flatten ++ []) :=
    .replace phrase [] (by decide) (by decide) (by decide) (by decide +kernel) (by decide)
  cases result : expandLoops twoLoops with
  | error fault =>
      rw [result] at expand
      cases expand
  | ok expanded =>
      rw [result] at expand
      have rewriting := (rewritesIn_expandLoops result).1
      refine ⟨expanded, _, rfl, Except.ok.inj expand, .step second (.refl _), ?_, ?_⟩
      · rcases rewriting _ _ (.step second (.refl _)) with ⟨_, further⟩ | ⟨all, _⟩
        · exact further
        · rw [loops] at all
          cases all
      · intro final complete
        rcases rewriting _ _ complete with ⟨few, _⟩ | ⟨_, _, same⟩
        · rw [loops] at few
          exact absurd few (Nat.lt_irrefl 2)
        · exact same

end Score

end ScoreSynth
