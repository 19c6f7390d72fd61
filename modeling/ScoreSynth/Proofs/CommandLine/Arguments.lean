import ScoreSynth.CommandLine.Arguments

/-!
# Requests for one document

The usual ways to call the tools: the player checks a document, and the summarizer prints
its summary or stores it.  A path is a positional argument, so it is read as it stands.
What is expected of a library that reads arguments (`Libraries.ReadsArguments` in
`ScoreSynth.Proofs.CommandLine.Libraries`) is shown here of the grammars.
-/

namespace ScoreSynth.CommandLine

/-- Whether an argument is read as a path: there is something in it, and it does not look
like a switch. -/
def IsPath (argument : List Char) : Prop :=
  argument ≠ [] ∧ looksLikeSwitch argument = false

instance (argument : List Char) : Decidable (IsPath argument) :=
  inferInstanceAs (Decidable (_ ∧ _))

/-- The arguments for a check. -/
def checkArguments (path : List Char) : List (List Char) :=
  ["--check".toList, path]

/-- The arguments for a summary, on one line or not, with those for its destination. -/
def summaryArguments (compact : Bool) (path : List Char) (others : List (List Char)) :
    List (List Char) :=
  (if compact then ["--compact".toList] else []) ++ path :: others

/-- The arguments for a destination. -/
def destinationArguments (destination : List Char) : List (List Char) :=
  ["-o".toList, destination]

namespace Grammar

variable {options : Type} {grammar : Grammar options}

theorem readArgument_positional {argument : List Char}
    (plain : looksLikeSwitch argument = false) (current : options) :
    grammar.readArgument current argument =
      (orUsage (grammar.positional argument current)).map (·, none) := by
  rw [readArgument.eq_def]
  split
  · cases plain
  · cases plain
  · rfl

/-- A positional argument that is taken changes the options, and the rest is read with
these. -/
theorem read_positional {argument : List Char} {current next : options}
    (plain : looksLikeSwitch argument = false)
    (taken : grammar.positional argument current = some next) (others : List (List Char)) :
    grammar.read current (argument :: others) = grammar.read next others := by
  have noEnd : argument ≠ ['-', '-'] := by
    rintro rfl
    cases plain
  rw [read, if_neg noEnd, readArgument_positional plain, taken]
  rfl

end Grammar

theorem takePath_none {text : List Char} (nonempty : text ≠ []) :
    takePath text none = some (some text) := by
  rw [takePath, List.isEmpty_eq_false_iff.2 nonempty]
  rfl

variable {path destination : List Char}

theorem PlayerOptions.read_checkArguments (isPath : IsPath path) :
    read (checkArguments path) = .ok ⟨some path, false, true, false⟩ := by
  have taken : grammar.positional path ⟨none, false, true, false⟩ =
      some ⟨some path, false, true, false⟩ := by
    simp only [grammar, takePath_none isPath.1, Option.map_some]
  exact Grammar.read_positional isPath.2 taken []

namespace SummarizerOptions

/-- Up to the path, the arguments for a summary say how it is laid out. -/
theorem read_grammar_summaryArguments (isPath : IsPath path) (compact : Bool)
    (others : List (List Char)) :
    grammar.read ⟨none, none, false⟩ (summaryArguments compact path others) =
      grammar.read ⟨some path, none, compact⟩ others := by
  have taken : grammar.positional path ⟨none, none, compact⟩ =
      some ⟨some path, none, compact⟩ := by
    simp only [grammar, takePath_none isPath.1, Option.map_some]
  cases compact with
  | false => exact Grammar.read_positional isPath.2 taken others
  | true => exact Grammar.read_positional isPath.2 taken others

theorem read_summaryArguments (isPath : IsPath path) (compact : Bool) :
    read (summaryArguments compact path []) = .ok ⟨path, none, compact⟩ := by
  rw [read, read_grammar_summaryArguments isPath]
  rfl

theorem read_grammar_destinationArguments (isDestination : IsPath destination) (compact : Bool) :
    grammar.read ⟨some path, none, compact⟩ (destinationArguments destination) =
      .ok ⟨some path, some destination, compact⟩ := by
  have read : grammar.readArgument ⟨some path, none, compact⟩ "-o".toList =
      .ok (⟨some path, none, compact⟩, some fun text options =>
        (takePath text options.output).map fun output => { options with output := output }) :=
    rfl
  have noEnd : "-o".toList ≠ ['-', '-'] := by decide
  rw [destinationArguments, Grammar.read, if_neg noEnd, read]
  simp only [isDestination.2, takePath_none isDestination.1, Option.map_some]
  rfl

theorem read_destinationArguments (isPath : IsPath path) (isDestination : IsPath destination)
    (compact : Bool) :
    read (summaryArguments compact path (destinationArguments destination)) =
      .ok ⟨path, some destination, compact⟩ := by
  rw [read, read_grammar_summaryArguments isPath, read_grammar_destinationArguments isDestination]
  rfl

end SummarizerOptions

end ScoreSynth.CommandLine
