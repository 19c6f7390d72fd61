import ScoreSynth.Recorder
import ScoreSynth.Rendering

/-!
# Playback

Every channel is played by a thread of its own: it opens a sink at the channel's
rate, writes the whole buffer, drains the sink and closes it.  Each of the first
three calls can be accepted, refused with an error, or break the thread.  The
thread then makes no further calls, but a sink that is open is closed all the
same, and what was recorded is captured.

The threads share nothing but the list of captures.  A schedule says whose turn
it is, step by step; what becomes of a channel does not depend on it.
-/

namespace ScoreSynth

/-- How an output answers a call. -/
inductive Reply where
  | accepted
  /-- The call fails.  Of its error only the text is ever used. -/
  | refused (reason : String)
  /-- The call breaks the thread. -/
  | broken
  deriving DecidableEq

/-- The reply that a result stands for. -/
def Reply.ofResult {α : Type} : Except Fault α → Reply
  | .ok _ => accepted
  | .error fault => refused fault.message

/-- How an output answers the calls of one channel. -/
structure Replies where
  opening : Reply
  writing : Reply
  draining : Reply
  deriving DecidableEq

/-- How a recorder answers the calls of a channel at a rate.  It accepts all but the
opening at an unavailable rate; what happens to the other calls before they reach
it is given. -/
def Replies.ofRecorder (unavailable : List Nat) (rate : Nat) (writing draining : Reply) :
    Replies :=
  ⟨.ofResult (Recorder.checkRate unavailable rate), writing, draining⟩

/-- A channel to be played, and how its calls are answered. -/
structure Part where
  rendering : Rendering
  replies : Replies
  deriving DecidableEq

/-- What became of a channel. -/
inductive Ending where
  | played (samples : Nat)
  | dropped (reason : String)
  deriving DecidableEq

namespace Ending

/-- The reason given for a thread that broke. -/
def brokenReason : String :=
  "playback thread panicked"

/-- Whether a channel was played to its end. -/
def isPlayed : Ending → Bool
  | played _ => true
  | dropped _ => false

end Ending

/-- The ending of a channel, with its index. -/
structure Outcome where
  index : Nat
  ending : Ending
  deriving DecidableEq

/-- What a thread does next. -/
inductive Stage where
  | opening
  | writing (sink : Recording)
  | draining (sink : Recording)
  /-- Only the sink is still to be closed. -/
  | closing (sink : Recording) (ending : Ending)
  | finished (ending : Ending)
  deriving DecidableEq

namespace Part

/-- What follows a call: the stage that an accepted call leads to, or the one that
`stop` makes of an ending. -/
def follow (reply : Reply) (accepted : Stage) (stop : Ending → Stage) : Stage :=
  match reply with
  | .accepted => accepted
  | .refused reason => stop (.dropped reason)
  | .broken => stop (.dropped Ending.brokenReason)

/-- The next stage of a channel's thread.  A thread that has finished stays so. -/
def next (part : Part) : Stage → Stage
  | .opening =>
      follow part.replies.opening (.writing (.opened part.rendering.rate)) .finished
  | .writing sink =>
      follow part.replies.writing (.draining (sink.write part.rendering.samples))
        (.closing sink)
  | .draining sink =>
      follow part.replies.draining
        (.closing sink.drain (.played part.rendering.samples.length)) (.closing sink)
  | .closing _ ending | .finished ending => .finished ending

end Part

/-- The sink that a stage closes. -/
def Stage.captured : Stage → List Recording
  | .closing sink _ => [sink]
  | _ => []

/-- The ending that a stage has reached. -/
def Stage.ending? : Stage → Option Ending
  | .finished ending => some ending
  | _ => none

/-- The threads of some channels, and what has been captured so far. -/
structure Playback where
  threads : List (Part × Stage)
  captures : List Recording
  deriving DecidableEq

namespace Playback

/-- Start a thread for each channel. -/
def start (parts : List Part) : Playback :=
  ⟨parts.map (·, .opening), []⟩

/-- Let one thread take its next step. -/
def advance (playback : Playback) (turn : Nat) : Playback :=
  match playback.threads[turn]? with
  | none => playback
  | some (part, stage) =>
      { threads := playback.threads.set turn (part, part.next stage)
        captures := playback.captures ++ stage.captured }

/-- Let threads take steps in the order of a schedule. -/
def run (playback : Playback) (schedule : List Nat) : Playback :=
  schedule.foldl advance playback

/-- Whether every thread has finished. -/
def isFinished (playback : Playback) : Bool :=
  playback.threads.all fun (_, stage) => stage.ending?.isSome

/-- The outcomes of the threads that have finished, in the order of the channels. -/
def outcomes (playback : Playback) : List Outcome :=
  playback.threads.filterMap fun (part, stage) =>
    stage.ending?.map fun ending => ⟨part.rendering.index, ending⟩

/-- The most steps a thread can take before it has finished. -/
def longestThread : Nat := 4

/-- The schedule that plays one channel after the other. -/
def inOrder (channels : Nat) : List Nat :=
  (List.range channels).flatMap fun turn => List.replicate longestThread turn

/-- Play channels to their end. -/
def play (parts : List Part) : Playback :=
  (start parts).run (inOrder parts.length)

end Playback

end ScoreSynth
