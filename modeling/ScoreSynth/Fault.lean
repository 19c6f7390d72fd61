import ScoreSynth.Instrument
import ScoreSynth.Pitch

/-!
# What can be wrong with a score

A fault is a cause.  Its wording is one function, `Fault.message`, and the line
it blames, if it blames one, is another, `Fault.line?`.  One fault is not a report
about a score but the end of the program (`Fault.breaks`).
-/

namespace ScoreSynth

/-- What can be wrong with the layout of a document. -/
inductive Defect where
  /-- The first line is not the header. -/
  | noHeader
  /-- The second line does not begin the global settings. -/
  | noGlobalLine
  | noGlobalStart
  | openGlobal
  | missingTempoValue
  | badTempo (text : List Char)
  | unknownSetting (name : List Char)
  | noTempo
  | openLoop
  | strayLoopEnd
  | openConfig
  | trailingContent
  | noChannels
  deriving DecidableEq, Repr

/-- What can be wrong with the repeat count of a loop. -/
inductive CountDefect where
  | missing
  | unreadable (text : List Char)
  | tooSmall
  deriving DecidableEq, Repr

/-- The four settings of a channel, in the order in which they are written. -/
inductive Field where
  | volume
  | transposition
  | sampleRate
  | instrument
  deriving DecidableEq, Repr

/-- Why a score cannot be read, rendered or played. -/
inductive Fault where
  | malformed (line : Nat) (defect : Defect)
  | nestedLoop (line : Nat)
  | badCount (line : Nat) (defect : CountDefect)
  | badField (field : Field) (value : List Char)
  /-- A drum kit has no keys to transpose. -/
  | transposedDrum
  | unknownPitch (line : Nat) (name : List Char)
  | malformedNote (line : Nat) (text : List Char)
  | unplayable (pitch : Pitch) (instrument : Instrument)
  | outOfRange (pitch : Pitch) (transposition : Int)
  /-- The sum of a pitch and a transposition does not fit in thirty-two bits. -/
  | sumOverflow (pitch : Pitch) (transposition : Int)
  | durationOverflow (line : Nat)
  | tooLong (duration rate : Nat)
  | misaligned (line blankLines : Nat)
  /-- An output refused, for the reason it gives. -/
  | sinkUnavailable (reason : String)
  deriving DecidableEq, Repr

namespace Defect

/-- The wording of a defect. -/
def message : Defect → String
  | noHeader => "The document is not a valid NSMF file."
  | noGlobalLine => "The document is not a valid NSMF file (expected globalconfig)."
  | noGlobalStart => "Expected globalconfig."
  | openGlobal => "globalconfig without endglobalconfig."
  | missingTempoValue => "tempo requires a value."
  | badTempo text => s!"\"{String.ofList text}\" is an invalid tempo value."
  | unknownSetting name => s!"Unknown global setting \"{String.ofList name}\"."
  | noTempo => "globalconfig has no tempo."
  | openLoop => "loop without endloop."
  | strayLoopEnd => "endloop without loop."
  | openConfig => "config without endconfig."
  | trailingContent => "Content after the last endchannel."
  | noChannels => "The document has no channels."

end Defect

namespace CountDefect

/-- The wording of a defect. -/
def message : CountDefect → String
  | missing => "loop requires a repeat count."
  | unreadable text => s!"\"{String.ofList text}\" is not a valid repeat count."
  | tooSmall => "Looping less than 2 times is not allowed."

end CountDefect

namespace Field

/-- The name of a setting in messages. -/
def name : Field → String
  | volume => "volume"
  | transposition => "transposition"
  | sampleRate => "sample rate"
  | instrument => "instrument"

end Field

namespace Fault

/-- The wording of a fault. -/
def message : Fault → String
  | malformed line defect => s!"Malformed document at line {line}: {defect.message}"
  | nestedLoop line =>
      s!"Unsupported construct at line {line}: Nested loops are not allowed."
  | badCount line defect => s!"Invalid argument at line {line}: {defect.message}"
  | badField field value =>
      s!"\"{String.ofList value}\" is an invalid {field.name} value"
  | transposedDrum =>
      "Conflicting config: Transposition of a drum channel can only be 0."
  | unknownPitch line name =>
      s!"Note \"{String.ofList name}\" is not available (line {line})"
  | malformedNote line text =>
      s!"Malformed note \"{String.ofList text}\" at line {line}"
  | unplayable pitch instrument =>
      s!"Note {pitch.describe} can not be played by instrument '{instrument.name}'"
  | outOfRange pitch transposition =>
      s!"Note {pitch.describe} transposed by {transposition} is outside the playable range"
  | sumOverflow .. => "attempt to add with overflow"
  | durationOverflow line => s!"Channel duration overflows at line {line}"
  | tooLong duration rate => s!"A {duration}ms note at {rate}Hz is too long to render"
  | misaligned line blankLines =>
      "Distance between lines can not be bigger than one empty line " ++
        s!"({blankLines} empty lines before line {line})"
  | sinkUnavailable reason => s!"Audio sink unavailable: {reason}"

/-- The line a fault blames. -/
def line? : Fault → Option Nat
  | malformed line _ | nestedLoop line | badCount line _ | unknownPitch line _
  | malformedNote line _ | durationOverflow line | misaligned line _ => some line
  | badField .. | transposedDrum | unplayable .. | outOfRange .. | sumOverflow ..
  | tooLong .. | sinkUnavailable _ => none

/-- Whether a fault breaks the program instead of being reported. -/
def breaks : Fault → Bool
  | sumOverflow .. => true
  | _ => false

end Fault

namespace Instrument

/-- Whether an instrument plays a pitch as it stands.  The drum kit plays the
percussion sounds, and the others play all pitches but those. -/
def plays (instrument : Instrument) (pitch : Pitch) : Bool :=
  instrument.isDrum == pitch.isPercussion

/-- Refuse a pitch that the instrument does not play. -/
def check (instrument : Instrument) (pitch : Pitch) : Except Fault Unit :=
  if instrument.plays pitch then .ok () else .error (.unplayable pitch instrument)

end Instrument

end ScoreSynth
