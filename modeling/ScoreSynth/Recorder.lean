import ScoreSynth.Fault
import ScoreSynth.Sample

/-!
# Recording output

A recorder is an output that keeps what is written to it.  It opens any number of
sinks, numbered in the order in which they are opened; some rates it refuses to
open.  A sink that is closed becomes a capture, and its number is spent.
-/

namespace ScoreSynth

/-- What has been sent to one sink. -/
structure Recording where
  rate : Nat
  samples : List Sample
  /-- Whether the sink was asked to play what it holds to the end. -/
  drained : Bool
  deriving DecidableEq

namespace Recording

/-- A sink that has just been opened. -/
def opened (rate : Nat) : Recording :=
  ⟨rate, [], false⟩

/-- Send samples. -/
def write (recording : Recording) (samples : List Sample) : Recording :=
  { recording with samples := recording.samples ++ samples }

/-- Ask for everything to be played. -/
def drain (recording : Recording) : Recording :=
  { recording with drained := true }

end Recording

/-- An output that records. -/
structure Recorder where
  /-- The rates that cannot be opened. -/
  unavailable : List Nat
  /-- The sinks by number; a closed one is `none`. -/
  sinks : List (Option Recording)
  /-- The closed sinks in the order in which they were closed. -/
  captures : List Recording
  deriving DecidableEq

namespace Recorder

/-- A recorder without sinks. -/
def new (unavailable : List Nat) : Recorder :=
  ⟨unavailable, [], []⟩

/-- Refuse a rate that cannot be opened. -/
def checkRate (unavailable : List Nat) (rate : Nat) : Except Fault Unit :=
  if rate ∈ unavailable then .error (.sinkUnavailable s!"{rate}Hz output is busy")
  else .ok ()

/-- Open a sink.  Its number is handed back. -/
def openSink (recorder : Recorder) (rate : Nat) : Except Fault (Nat × Recorder) := do
  checkRate recorder.unavailable rate
  return (recorder.sinks.length,
    { recorder with sinks := recorder.sinks ++ [some (.opened rate)] })

/-- The open sink with a number. -/
def sink? (recorder : Recorder) (number : Nat) : Option Recording :=
  recorder.sinks[number]?.join

/-- Change an open sink; `none` if it is not open. -/
def change (recorder : Recorder) (number : Nat) (update : Recording → Recording) :
    Option Recorder :=
  (recorder.sink? number).map fun recording =>
    { recorder with sinks := recorder.sinks.set number (some (update recording)) }

/-- Send samples to a sink. -/
def write (recorder : Recorder) (number : Nat) (samples : List Sample) :
    Option Recorder :=
  recorder.change number (·.write samples)

/-- Ask a sink to play to the end. -/
def drain (recorder : Recorder) (number : Nat) : Option Recorder :=
  recorder.change number (·.drain)

/-- Close a sink, which makes it a capture. -/
def close (recorder : Recorder) (number : Nat) : Option Recorder :=
  (recorder.sink? number).map fun recording =>
    { recorder with
      sinks := recorder.sinks.set number none
      captures := recorder.captures ++ [recording] }

end Recorder

end ScoreSynth
