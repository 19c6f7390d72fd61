/-!
# Instruments

Nine instruments turn a pitch into sound.  One of them is the drum kit, which
plays the percussion sounds and nothing else; the others play everything else.
-/

namespace ScoreSynth

/-- What plays a channel. -/
inductive Instrument where
  /-- Plays silence, so that a channel can be muted. -/
  | test
  | sinwave
  | sqwave
  | sawtoothwave
  | trianglewave
  | drum
  | draworgan
  | oboe
  | flute
  deriving DecidableEq, Repr

namespace Instrument

/-- All instruments in the order in which they are listed. -/
def all : List Instrument :=
  [.test, .sinwave, .sqwave, .sawtoothwave, .trianglewave, .drum, .draworgan,
   .oboe, .flute]

/-- The name that settings and listings use. -/
def name : Instrument → String
  | .test => "test"
  | .sinwave => "sinwave"
  | .sqwave => "sqwave"
  | .sawtoothwave => "sawtoothwave"
  | .trianglewave => "trianglewave"
  | .drum => "drum"
  | .draworgan => "draworgan"
  | .oboe => "oboe"
  | .flute => "flute"

/-- The instrument with a name. -/
def ofName? (name : List Char) : Option Instrument :=
  all.find? fun instrument => instrument.name.toList = name

/-- Whether an instrument is the drum kit. -/
def isDrum (instrument : Instrument) : Bool :=
  instrument = .drum

/-- A name leads back to its instrument. -/
@[simp] theorem ofName?_name (instrument : Instrument) :
    ofName? instrument.name.toList = some instrument := by
  cases instrument <;> rfl

end Instrument

end ScoreSynth
