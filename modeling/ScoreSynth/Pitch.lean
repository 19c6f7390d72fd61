/-!
# Pitches

A pitch is an index: `0` is a rest, `1` to `99` are the keys from A0 to B8 in
semitone steps, and `100` to `102` are the three percussion sounds.  Other
integers are pitches too; nothing can play them, but a transposition can reach
them.  The table of names gives each index from `0` to `102` its one name.
-/

namespace ScoreSynth

/-- The index of a sound. -/
abbrev Pitch := Int

namespace Pitch

/-- Silence that takes time. -/
def rest : Pitch := 0

/-- The tuning key, A4. -/
def tuningKey : Pitch := 49

/-- The highest key, B8. -/
def highestKey : Pitch := 99

/-- A short high drum. -/
def click : Pitch := 100

/-- A low drum. -/
def bass : Pitch := 101

/-- A drum of noise. -/
def snare : Pitch := 102

/-- The twelve keys of an octave in ascending order; `s` stands for sharp. -/
def keysOfOctave (octave : Char) : List (List Char) :=
  [['C'], ['C', 's'], ['D'], ['D', 's'], ['E'], ['F'], ['F', 's'], ['G'],
   ['G', 's'], ['A'], ['A', 's'], ['B']].map (· ++ [octave])

/-- The name of each index, from `0` on.  The lowest octave has only its last
three keys. -/
def names : List (List Char) :=
  ["pause".toList] ++ (keysOfOctave '0').drop 9 ++
    ['1', '2', '3', '4', '5', '6', '7', '8'].flatMap keysOfOctave ++
    ["click".toList, "bass".toList, "snare".toList]

/-- The pitch with a name.  Upper and lower case differ. -/
def ofName? (name : List Char) : Option Pitch :=
  (names.idxOf? name).map Int.ofNat

/-- The name of a pitch, if it has one. -/
def name? : Pitch → Option (List Char)
  | .ofNat index => names[index]?
  | .negSucc _ => none

/-- A pitch as messages show it: name and index, or the index alone. -/
def describe (pitch : Pitch) : String :=
  match pitch.name? with
  | some name => s!"{String.ofList name} ({pitch})"
  | none => s!"{pitch}"

/-- Whether a pitch is a percussion sound. -/
def isPercussion (pitch : Pitch) : Bool :=
  click ≤ pitch && pitch ≤ snare

/-- Whether a pitch is a key. -/
def isKey (pitch : Pitch) : Bool :=
  1 ≤ pitch && pitch ≤ highestKey

/-- The frequency of a pitch in hertz: equal temperament around A4 at 440 Hz.
Rests, and what lies below them, have frequency zero. -/
def frequency (pitch : Pitch) : Float :=
  if pitch ≤ rest then 0
  else 440 * Float.pow 2 (Float.ofInt (pitch - tuningKey) / 12)

/-- The table has a name for the rest, ninety-nine keys and three drums. -/
@[simp] theorem length_names : names.length = 103 := by decide

/-- No two pitches share a name. -/
theorem nodup_names : names.Nodup := by decide +kernel

end Pitch

end ScoreSynth
