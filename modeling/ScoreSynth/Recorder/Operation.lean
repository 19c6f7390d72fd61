import ScoreSynth.Recorder

/-!
# Operations on a recorder

A recorder is worked with by opening sinks and by writing to them, draining them and closing
them, any number of sinks at a time.  An operation on a sink that is not open is not carried
out.
-/

namespace ScoreSynth.Recorder

/-- What is done with a recorder.  Sinks go by their numbers. -/
inductive Operation where
  | opening (rate : Nat)
  | writing (number : Nat) (samples : List Sample)
  | draining (number : Nat)
  | closing (number : Nat)
  deriving DecidableEq

/-- What comes of an operation. -/
inductive Answer where
  | opened (number : Nat)
  | refused (fault : Fault)
  | done
  | notOpen
  deriving DecidableEq

/-- Go over to the recorder that an operation on a sink has made, if it could be carried out. -/
def settle (recorder : Recorder) : Option Recorder → Answer × Recorder
  | some next => (.done, next)
  | none => (.notOpen, recorder)

/-- Carry out an operation. -/
def perform (recorder : Recorder) : Operation → Answer × Recorder
  | .opening rate =>
      match recorder.openSink rate with
      | .ok (number, next) => (.opened number, next)
      | .error fault => (.refused fault, recorder)
  | .writing number samples => recorder.settle (recorder.write number samples)
  | .draining number => recorder.settle (recorder.drain number)
  | .closing number => recorder.settle (recorder.close number)

/-- Carry out operations one after the other. -/
def run (recorder : Recorder) (operations : List Operation) : Recorder :=
  operations.foldl (fun recorder operation => (recorder.perform operation).2) recorder

end ScoreSynth.Recorder
