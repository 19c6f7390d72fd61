/-!
# Tokens

A token is a word of the document together with the place it came from: its
line, and for the first word of a line also the number of empty lines directly
above.  Some words are reserved; they are the punctuation of the notation.
-/

namespace ScoreSynth

/-- A word of the document and its place. -/
structure Token where
  text : List Char
  /-- The line of the word, counted from one. -/
  line : Nat
  /-- The number of empty lines directly above; zero unless the word is the
  first of its line. -/
  blankLines : Nat
  deriving DecidableEq, Repr

/-- The reserved words. -/
inductive Keyword where
  | globalconfig
  | endglobalconfig
  | tempo
  | loop
  | endloop
  | channel
  | endchannel
  | config
  | endconfig
  deriving DecidableEq, Repr

namespace Keyword

/-- How a reserved word is spelled. -/
def text : Keyword → List Char
  | globalconfig => "globalconfig".toList
  | endglobalconfig => "endglobalconfig".toList
  | tempo => "tempo".toList
  | loop => "loop".toList
  | endloop => "endloop".toList
  | channel => "channel".toList
  | endchannel => "endchannel".toList
  | config => "config".toList
  | endconfig => "endconfig".toList

end Keyword

namespace Token

/-- Whether a token is a given reserved word. -/
def is (token : Token) (keyword : Keyword) : Bool :=
  token.text = keyword.text

@[simp] theorem is_iff {token : Token} {keyword : Keyword} :
    token.is keyword = true ↔ token.text = keyword.text := by
  simp [is]

end Token

end ScoreSynth
