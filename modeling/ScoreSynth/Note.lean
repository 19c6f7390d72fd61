import ScoreSynth.Fault
import ScoreSynth.Text.Numeral
import ScoreSynth.Token

/-!
# Notes

A note is written as the name of its pitch, a comma and a duration.  The first
comma of the word is the one that counts.  An unknown name is reported before an
unreadable duration.
-/

namespace ScoreSynth

/-- A pitch and how long it sounds. -/
structure Note where
  pitch : Pitch
  /-- The duration in milliseconds, tempo applied. -/
  duration : Nat
  /-- The line the note was written on. -/
  line : Nat
  deriving DecidableEq, Repr

namespace Note

/-- Whether a note is silence. -/
def isRest (note : Note) : Bool :=
  note.pitch = Pitch.rest

/-- A written duration in milliseconds: the product is rounded once, then its
fraction is dropped.  A product beyond sixty-four bits becomes the largest such
number. -/
def scaled (multiplier : Float) (written : Nat) : Nat :=
  (written.toFloat * multiplier).toUInt64.toNat

/-- The name before the first comma and the text behind it. -/
def parts? (text : List Char) : Option (List Char × List Char) :=
  match text.dropWhile (· ≠ ',') with
  | [] => none
  | _ :: duration => some (text.takeWhile (· ≠ ','), duration)

/-- Read a note, scaling its duration. -/
def ofToken (multiplier : Float) (token : Token) : Except Fault Note :=
  match parts? token.text with
  | none => .error (.malformedNote token.line token.text)
  | some (name, duration) =>
      match Pitch.ofName? name with
      | none => .error (.unknownPitch token.line name)
      | some pitch =>
          match Numeral.natural? Numeral.bound32 duration with
          | none => .error (.malformedNote token.line token.text)
          | some written => .ok ⟨pitch, scaled multiplier written, token.line⟩

end Note

end ScoreSynth
