import ScoreSynth.Token.Scan

/-!
# Laying out tokens

A list of tokens can be laid out as a document whose scan is that list again, if
the places of the tokens agree with one another (`WellPlaced`).  Every word goes
to its line.  The lines between two lines of words are empty as far as the gap
above the later one reaches, and hold an empty comment above that.
-/

namespace ScoreSynth.Token

/-- Whether a token can come directly after another: on the same line, without a
gap of its own, or on a later line, with a gap that fits between the two. -/
def Follows (token before : Token) : Prop :=
  token.line = before.line ∧ token.blankLines = 0 ∨
    before.line + token.blankLines < token.line

instance (token before : Token) : Decidable (token.Follows before) :=
  inferInstanceAs (Decidable (_ ∨ _))

/-- Whether the places of tokens agree with one another behind a given token. -/
def WellPlacedAfter (before : Token) : List Token → Prop
  | [] => True
  | token :: others => token.Follows before ∧ WellPlacedAfter token others

instance decidableWellPlacedAfter (before : Token) :
    (tokens : List Token) → Decidable (WellPlacedAfter before tokens)
  | [] => .isTrue trivial
  | token :: others =>
      have := decidableWellPlacedAfter token others
      inferInstanceAs (Decidable (_ ∧ _))

/-- Whether tokens can come from a document: every text is a word, the first one
begins the second line and opens the global settings, and the places agree. -/
def WellPlaced : List Token → Prop
  | [] => False
  | first :: others =>
      (∀ token ∈ first :: others, Text.IsWord token.text) ∧
        first.line = 2 ∧ first.blankLines = 0 ∧
        Document.opensGlobal first.text = true ∧ WellPlacedAfter first others

instance : DecidablePred WellPlaced
  | [] => .isFalse not_false
  | _ :: _ => inferInstanceAs (Decidable (_ ∧ _))

/-- The lines that the words of consecutive lines of words need, each such line
given as the list of its tokens.  `last` is the number of the line before. -/
def layOutLines (last : Nat) : List (List Token) → List (List Char)
  | [] => []
  | [] :: others => layOutLines last others
  | (first :: same) :: others =>
      List.replicate (first.line - 1 - last - first.blankLines) [';'] ++
        List.replicate first.blankLines [] ++
        Text.joinWords ((first :: same).map (·.text)) ::
        layOutLines first.line others

/-- The document in which every token has its place. -/
def layOut (tokens : List Token) : List Char :=
  Text.joinLines (Document.header ::
    layOutLines 1 (tokens.splitBy fun before token => before.line == token.line))

end ScoreSynth.Token
