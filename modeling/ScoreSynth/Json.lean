import ScoreSynth.Decimal.Shortest

/-!
# Structured text

Summaries are written as JSON, either without any white space or with one field
or item a line, indented by two spaces a level.  The names in a summary have only
letters and underscores, which need no escapes.  A fraction has the fewest digits
that read back, and a power of ten only where its point would lie before the fifth
zero or behind the sixteenth digit; what is not a finite number is written as
`null`.
-/

namespace ScoreSynth

/-- A value that structured text stands for. -/
inductive Json where
  | null
  | whole (number : Int)
  | fraction (value : Float)
  | name (text : String)
  | list (items : List Json)
  | record (fields : List (String × Json))

namespace Json

/-- How fractions are set out. -/
def fractionLayout : Decimal.Layout :=
  ⟨-5, 16⟩

/-- How lists and records are set out. -/
structure Layout where
  /-- What stands before a field, an item or a closing bracket at a level. -/
  margin : Nat → List Char
  /-- What stands behind a colon. -/
  gap : List Char

namespace Layout

/-- All on one line, without white space. -/
def oneLine : Layout :=
  ⟨fun _ => [], []⟩

/-- One field or item a line. -/
def indented : Layout :=
  ⟨fun level => '\n' :: List.replicate (2 * level) ' ', [' ']⟩

/-- Put texts between two brackets at a level, separated by commas. -/
def enclose (layout : Layout) (level : Nat) (left right : Char) :
    List (List Char) → List Char
  | [] => [left, right]
  | first :: others =>
      left :: layout.margin (level + 1) ++ first ++
        others.flatMap (fun text => ',' :: layout.margin (level + 1) ++ text) ++
        layout.margin level ++ [right]

end Layout

/-- A name in quotes. -/
def quote (text : String) : List Char :=
  '"' :: text.toList ++ ['"']

mutual

/-- Write a value.  The level is that of the line it begins on. -/
def write (layout : Layout) (level : Nat) : Json → List Char
  | null => "null".toList
  | whole number => Numeral.ofInt number
  | fraction value => (fractionLayout.text? value).getD "null".toList
  | name text => quote text
  | list items => layout.enclose level '[' ']' (writeItems layout (level + 1) items)
  | record fields =>
      layout.enclose level '\x7b' '\x7d' (writeFields layout (level + 1) fields)

/-- Write each item. -/
def writeItems (layout : Layout) (level : Nat) : List Json → List (List Char)
  | [] => []
  | item :: others => item.write layout level :: writeItems layout level others

/-- Write each field. -/
def writeFields (layout : Layout) (level : Nat) :
    List (String × Json) → List (List Char)
  | [] => []
  | (key, value) :: others =>
      (quote key ++ ':' :: layout.gap ++ value.write layout level) ::
        writeFields layout level others

end

/-- The text of a value on one line. -/
def compact (value : Json) : String :=
  String.ofList (value.write .oneLine 0)

/-- The text of a value over several lines. -/
def pretty (value : Json) : String :=
  String.ofList (value.write .indented 0)

end Json

end ScoreSynth
