import ScoreSynth.Fault
import ScoreSynth.Note
import ScoreSynth.SampleRate

/-!
# The settings of a channel

Settings are written as four words in a fixed order: volume in percent,
transposition in semitones, sample rate and instrument.  Each word may carry a
label.  Labels are decoration: any label may stand before any field, one label
is taken away from each word, and words after the fourth have no meaning.  The
first field that cannot be read is reported.
-/

namespace ScoreSynth

/-- How the notes of a channel are played. -/
structure Settings where
  /-- The factor applied to every sample. -/
  volume : Float
  /-- The semitones added to every note that is not a rest. -/
  transposition : Int
  /-- The samples per second. -/
  rate : Nat
  instrument : Instrument
  deriving DecidableEq

/-- The position of a field among the words, counted from zero. -/
def Field.position : Field → Nat
  | volume => 0
  | transposition => 1
  | sampleRate => 2
  | instrument => 3

namespace Settings

/-- The labels a word may carry. -/
def labels : List (List Char) :=
  ["volume=".toList, "transpos=".toList, "samplerate=".toList, "instrument=".toList]

/-- Take away the label of a word, if it carries one. -/
def withoutLabel (word : List Char) : List Char :=
  (labels.findSome? fun label => label.isPrefixOf? word).getD word

/-- What the word of a field says, without its label; nothing if there are not so many
words. -/
def textOf (words : List (List Char)) (field : Field) : List Char :=
  (words[field.position]?.map withoutLabel).getD []

/-- The factor for a volume in percent. -/
def volumeOfPercent (percent : Int) : Float :=
  Float.ofInt percent / 100

/-- Read one field, or blame it. -/
def require {α : Type} (field : Field) (read : List Char → Option α)
    (text : List Char) : Except Fault α :=
  match read text with
  | some value => .ok value
  | none => .error (.badField field text)

/-- Read the words of a block of settings. -/
def ofWords (words : List (List Char)) : Except Fault Settings := do
  let percent ← require .volume Numeral.signed32? (textOf words .volume)
  let transposition ← require .transposition Numeral.signed32? (textOf words .transposition)
  let rate ← require .sampleRate SampleRate.ofText? (textOf words .sampleRate)
  let instrument ← require .instrument Instrument.ofName? (textOf words .instrument)
  if instrument.isDrum ∧ transposition ≠ 0 then throw .transposedDrum
  return ⟨volumeOfPercent percent, transposition, rate, instrument⟩

/-- The pitch that sounds for a note that is not a rest.  Adding the transposition
breaks the program when the sum does not fit in thirty-two bits. -/
def soundingPitch (settings : Settings) (note : Note) : Except Fault Pitch :=
  let sounding := note.pitch + settings.transposition
  if Numeral.lowest32 ≤ sounding ∧ sounding ≤ Numeral.highest32 then .ok sounding
  else .error (.sumOverflow note.pitch settings.transposition)

/-- Refuse a note that the channel cannot play.  A rest can always be played.
Any other note must be of the instrument's kind as written, and a key must still
be a key after transposition. -/
def check (settings : Settings) (note : Note) : Except Fault Unit := do
  if note.isRest then return
  settings.instrument.check note.pitch
  if ! settings.instrument.isDrum then
    let sounding ← settings.soundingPitch note
    if ! sounding.isKey then throw (.outOfRange note.pitch settings.transposition)

end Settings

end ScoreSynth
