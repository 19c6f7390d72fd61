import ScoreSynth.Playback

/-!
# Threads of a playback

What one thread does depends on its part alone.  At every stage a thread has some
calls still to make and an ending to come to.  A step makes the first of these
calls and leaves the ending as it was, so after any number of steps a thread has
made that many of its calls, and with the last of them it has finished.

The calls of a channel are described without its thread: behind a call that fails
there is only the closing of the sink, and the first failure is the reason given
for dropping the channel.
-/

namespace ScoreSynth

/-- A call that a thread makes to its output. -/
inductive Call where
  | opening (rate : Nat)
  | writing (samples : List Sample)
  | draining
  | closing
  deriving DecidableEq

namespace Reply

/-- Why a call fails, if it does. -/
def failure? : Reply → Option String
  | accepted => none
  | refused reason => some reason
  | broken => some Ending.brokenReason

/-- The calls behind a call: some if it is accepted, and others if it fails. -/
def select (reply : Reply) (accepted failed : List Call) : List Call :=
  if reply.failure?.isNone then accepted else failed

end Reply

namespace Part

/-- The ending that replies lead to: the first failure among them drops the
channel. -/
def endingOf (part : Part) (replies : List Reply) : Ending :=
  match replies.findSome? Reply.failure? with
  | none => .played part.rendering.samples.length
  | some reason => .dropped reason

/-- What becomes of a channel. -/
def outcome (part : Part) : Outcome :=
  ⟨part.rendering.index,
    part.endingOf [part.replies.opening, part.replies.writing, part.replies.draining]⟩

/-- The calls of a channel. -/
def calls (part : Part) : List Call :=
  .opening part.rendering.rate ::
    part.replies.opening.select
      (.writing part.rendering.samples ::
        part.replies.writing.select [.draining, .closing] [.closing])
      []

/-! ## One step -/

/-- The call that a thread makes at a stage. -/
def call? (part : Part) : Stage → Option Call
  | .opening => some (.opening part.rendering.rate)
  | .writing _ => some (.writing part.rendering.samples)
  | .draining _ => some .draining
  | .closing .. => some .closing
  | .finished _ => none

/-- The calls that a thread has still to make at a stage. -/
def callsAt (part : Part) : Stage → List Call
  | .opening => part.calls
  | .writing _ =>
      .writing part.rendering.samples ::
        part.replies.writing.select [.draining, .closing] [.closing]
  | .draining _ => [.draining, .closing]
  | .closing .. => [.closing]
  | .finished _ => []

/-- The ending that a thread comes to from a stage. -/
def endingAt (part : Part) : Stage → Ending
  | .opening => part.outcome.ending
  | .writing _ => part.endingOf [part.replies.writing, part.replies.draining]
  | .draining _ => part.endingOf [part.replies.draining]
  | .closing _ ending | .finished ending => ending

/-- The calls behind a call are those of the stage it leads to. -/
theorem callsAt_follow (part : Part) (reply : Reply) (accepted : Stage)
    (stop : Ending → Stage) (failed : List Call)
    (stopped : ∀ ending, part.callsAt (stop ending) = failed) :
    part.callsAt (follow reply accepted stop) =
      reply.select (part.callsAt accepted) failed := by
  cases reply with
  | accepted => rfl
  | refused reason => exact stopped _
  | broken => exact stopped _

/-- The ending behind a call is that of the stage it leads to. -/
theorem endingAt_follow (part : Part) (reply : Reply) {accepted : Stage}
    {stop : Ending → Stage} {replies : List Reply}
    (onward : part.endingAt accepted = part.endingOf replies)
    (stopped : ∀ ending, part.endingAt (stop ending) = ending) :
    part.endingAt (follow reply accepted stop) = part.endingOf (reply :: replies) := by
  cases reply with
  | accepted => exact onward
  | refused reason => exact stopped _
  | broken => exact stopped _

/-- A step makes the first of the calls still to be made. -/
theorem callsAt_eq_call?_append (part : Part) (stage : Stage) :
    part.callsAt stage = (part.call? stage).toList ++ part.callsAt (part.next stage) := by
  cases stage with
  | opening =>
      rw [next, part.callsAt_follow _ _ .finished [] fun _ => rfl]
      rfl
  | writing sink =>
      rw [next, part.callsAt_follow _ _ (.closing sink) [.closing] fun _ => rfl]
      rfl
  | draining sink =>
      -- The sink is closed next, whatever the reply.
      rw [next, part.callsAt_follow _ _ (.closing sink) [.closing] fun _ => rfl]
      simp [callsAt, call?, Reply.select]
  | closing sink ending => rfl
  | finished ending => rfl

/-- A step does not change the ending that a thread comes to. -/
theorem endingAt_next (part : Part) (stage : Stage) :
    part.endingAt (part.next stage) = part.endingAt stage := by
  cases stage with
  | opening => exact part.endingAt_follow _ rfl fun _ => rfl
  | writing sink => exact part.endingAt_follow _ rfl fun _ => rfl
  | draining sink => exact part.endingAt_follow _ rfl fun _ => rfl
  | closing sink ending => rfl
  | finished ending => rfl

/-- A thread has come to its ending exactly when it has no call left to make. -/
theorem ending?_eq (part : Part) (stage : Stage) :
    stage.ending? =
      if part.callsAt stage = [] then some (part.endingAt stage) else none := by
  cases stage <;> rfl

/-! ## Any number of steps -/

/-- The stage that a thread reaches in a number of steps. -/
def advanced (part : Part) (stage : Stage) : Nat → Stage
  | 0 => stage
  | steps + 1 => part.advanced (part.next stage) steps

/-- The calls that a thread makes in a number of steps. -/
def callsFrom (part : Part) (stage : Stage) : Nat → List Call
  | 0 => []
  | steps + 1 => (part.call? stage).toList ++ part.callsFrom (part.next stage) steps

/-- The calls of a step are no more than one, and none only at the end. -/
theorem take_callsAt_succ (part : Part) (stage : Stage) (steps : Nat) :
    (part.callsAt stage).take (steps + 1) =
      (part.call? stage).toList ++ (part.callsAt (part.next stage)).take steps := by
  rw [callsAt_eq_call?_append]
  cases stage <;> simp [call?, callsAt, next]

theorem drop_callsAt_succ (part : Part) (stage : Stage) (steps : Nat) :
    (part.callsAt stage).drop (steps + 1) = (part.callsAt (part.next stage)).drop steps := by
  rw [callsAt_eq_call?_append]
  cases stage <;> simp [call?, callsAt, next]

/-- In a number of steps a thread makes that many of its calls. -/
theorem callsFrom_eq_take (part : Part) (stage : Stage) (steps : Nat) :
    part.callsFrom stage steps = (part.callsAt stage).take steps := by
  induction steps generalizing stage with
  | zero => simp [callsFrom]
  | succ steps ih => rw [callsFrom, ih, take_callsAt_succ]

theorem callsAt_advanced (part : Part) (stage : Stage) (steps : Nat) :
    part.callsAt (part.advanced stage steps) = (part.callsAt stage).drop steps := by
  induction steps generalizing stage with
  | zero => simp [advanced]
  | succ steps ih => rw [advanced, ih, drop_callsAt_succ]

theorem endingAt_advanced (part : Part) (stage : Stage) (steps : Nat) :
    part.endingAt (part.advanced stage steps) = part.endingAt stage := by
  induction steps generalizing stage with
  | zero => rfl
  | succ steps ih => rw [advanced, ih, endingAt_next]

/-- A thread that has made all its calls has come to the ending of its channel, and
a thread that has not has come to none. -/
theorem ending?_advanced (part : Part) (steps : Nat) :
    (part.advanced .opening steps).ending? =
      if part.calls.length ≤ steps then some part.outcome.ending else none := by
  rw [part.ending?_eq, callsAt_advanced, endingAt_advanced]
  simp only [callsAt, endingAt, List.drop_eq_nil_iff]

theorem length_calls_le (part : Part) : part.calls.length ≤ Playback.longestThread := by
  simp only [calls, Reply.select, Playback.longestThread]
  split
  · split <;> simp
  · simp

end Part

end ScoreSynth
