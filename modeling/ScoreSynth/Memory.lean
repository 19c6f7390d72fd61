import ScoreSynth.Sample
import ScoreSynth.SampleRate

/-!
# Buffers

Buffers are asked for one after the other, and any of them may be refused, however small it is.
Where no memory is named it is an ample one, which refuses only what is never to be had.
-/

namespace ScoreSynth

/-- What is answered when a buffer is asked for: whether there is one of this size, in
samples, after so many others have been asked for. -/
structure Memory where
  grants (request size : Nat) : Bool

/-- The largest buffer that can be had, in samples: two to the power of forty-seven. -/
def Memory.largestBuffer : Nat := 140737488355328

/-- A memory that has every buffer but those that are never to be had. -/
def Memory.ample : Memory :=
  ⟨fun _ size => size ≤ largestBuffer⟩

namespace Sample

variable (grants : Nat → Bool)

/-- The size of a buffer for a duration, if it is granted. -/
def bufferSizeIn (duration rate : Nat) : Except Fault Nat := do
  let size ← count duration rate
  if grants size then return size else throw (.tooLong duration rate)

/-- The samples of a rest.  Rests have the standard rate on every channel. -/
def silenceIn (duration : Nat) : Except Fault (List Sample) := do
  return List.replicate (← bufferSizeIn grants duration SampleRate.standard) 0

/-- The samples of a rest, if such a buffer can be had at all. -/
def silence (duration : Nat) : Except Fault (List Sample) :=
  silenceIn (Memory.ample.grants 0) duration

end Sample

end ScoreSynth
