import Mathlib.Data.List.Perm.Basic
import ScoreSynth.Proofs.Playback.Isolation

/-!
# What a playback leaves on a recorder

The threads of a playback add to one list of captures, each when it closes its sink, in
whatever order the schedule brings.  What a thread has still to add is decided by its part
alone.  A turn moves it from what is to come to what has been captured, so both together stay
the same up to their order.  In the end nothing is to come, and there is one capture for each
channel whose sink was opened (`Playback.captures_perm`).
-/

namespace ScoreSynth

namespace Part

/-- What a channel leaves on its output.  It leaves nothing if its sink cannot be opened.
Otherwise the sink is captured as it was when a call last reached it. -/
def capture? (part : Part) : Option Recording :=
  if part.replies.opening = .accepted then
    some {
      rate := part.rendering.rate
      samples := if part.replies.writing = .accepted then part.rendering.samples else []
      drained := part.replies.writing = .accepted ∧ part.replies.draining = .accepted }
  else none

/-- A sink that is open, after the drain that comes next. -/
def drainedSink (part : Part) (sink : Recording) : Recording :=
  if part.replies.draining = .accepted then sink.drain else sink

/-- A sink that is open, after the write that comes next and what follows it. -/
def writtenSink (part : Part) (sink : Recording) : Recording :=
  if part.replies.writing = .accepted then
    part.drainedSink (sink.write part.rendering.samples)
  else sink

/-- The captures that a thread has still to add at a stage. -/
def toCome (part : Part) : Stage → List Recording
  | .opening => part.capture?.toList
  | .writing sink => [part.writtenSink sink]
  | .draining sink => [part.drainedSink sink]
  | .closing sink _ => [sink]
  | .finished _ => []

theorem capture?_eq (part : Part) :
    part.capture? =
      if part.replies.opening = .accepted then
        some (part.writtenSink (.opened part.rendering.rate))
      else none := by
  by_cases written : part.replies.writing = .accepted
  · by_cases drained : part.replies.draining = .accepted
    · simp [capture?, writtenSink, drainedSink, written, drained, Recording.opened,
        Recording.write, Recording.drain]
    · simp [capture?, writtenSink, drainedSink, written, drained, Recording.opened,
        Recording.write]
  · simp [capture?, writtenSink, written, Recording.opened]

/-- A step captures the sink that it closes, and nothing else. -/
theorem toCome_eq_captured_append (part : Part) (stage : Stage) :
    part.toCome stage = stage.captured ++ part.toCome (part.next stage) := by
  cases stage with
  | opening =>
      rw [toCome, capture?_eq, next]
      cases part.replies.opening <;> rfl
  | writing sink =>
      rw [toCome, writtenSink, next]
      cases part.replies.writing <;> rfl
  | draining sink =>
      rw [toCome, drainedSink, next]
      cases part.replies.draining <;> rfl
  | closing sink ending => rfl
  | finished ending => rfl

/-- A channel is played to its end when no call of it fails. -/
theorem isPlayed_endingOf (part : Part) (replies : List Reply) :
    (part.endingOf replies).isPlayed = true ↔ ∀ reply ∈ replies, reply = .accepted := by
  have accepted (reply : Reply) : reply.failure? = none ↔ reply = .accepted := by
    cases reply <;> simp [Reply.failure?]
  simp only [← accepted, ← List.findSome?_eq_none_iff]
  rw [endingOf]
  split
  · next none => simp [none, Ending.isPlayed]
  · next reason failed => simp [failed, Ending.isPlayed]

/-- A channel has been played exactly when it leaves its whole buffer, drained. -/
theorem isPlayed_outcome_iff (part : Part) :
    part.outcome.ending.isPlayed = true ↔
      part.capture? = some ⟨part.rendering.rate, part.rendering.samples, true⟩ := by
  rw [outcome, isPlayed_endingOf, capture?]
  by_cases opened : part.replies.opening = .accepted
  · simp +contextual [opened]
  · simp [opened]

/-- A channel to be played on a recorder that refuses some rates.  What becomes of its write
and its drain before they reach the sink is given. -/
def onRecorder (unavailable : List Nat) (channel : Rendering × Reply × Reply) : Part :=
  ⟨channel.1, .ofRecorder unavailable channel.1.rate channel.2.1 channel.2.2⟩

/-- A recorder opens every sink but those at the rates that it refuses. -/
theorem capture?_onRecorder (unavailable : List Nat) (rendering : Rendering)
    (writing draining : Reply) :
    (onRecorder unavailable (rendering, writing, draining)).capture? =
      if rendering.rate ∈ unavailable then none
      else some {
        rate := rendering.rate
        samples := if writing = .accepted then rendering.samples else []
        drained := writing = .accepted ∧ draining = .accepted } := by
  rw [capture?, onRecorder, Replies.ofRecorder, Recorder.checkRate]
  by_cases refused : rendering.rate ∈ unavailable
  · simp [refused, Reply.ofResult]
  · simp [refused, Reply.ofResult]

end Part

namespace Playback

/-- The captures that all threads have still to add. -/
def toCome (playback : Playback) : List Recording :=
  playback.threads.flatMap fun (part, stage) => part.toCome stage

theorem toCome_start (parts : List Part) :
    (start parts).toCome = parts.filterMap Part.capture? := by
  rw [toCome, start, List.flatMap_map]
  exact (List.filterMap_eq_flatMap_toList Part.capture? parts).symm

theorem toCome_of_isFinished {playback : Playback} (finished : playback.isFinished = true) :
    playback.toCome = [] := by
  apply List.flatMap_eq_nil_iff.2
  intro thread member
  have ended := List.all_eq_true.1 finished thread member
  rcases thread with ⟨part, stage⟩
  cases stage with
  | finished ending => rfl
  | _ => cases ended

/-- A turn of a thread that there is changes this thread, and captures the sink that the
thread closes. -/
theorem advance_of_present {playback : Playback} {turn : Nat} {part : Part} {stage : Stage}
    (present : playback.threads[turn]? = some (part, stage)) :
    ∃ before after, playback.threads = before ++ (part, stage) :: after ∧
      playback.advance turn =
        ⟨before ++ (part, part.next stage) :: after, playback.captures ++ stage.captured⟩ := by
  obtain ⟨inBounds, found⟩ := List.getElem?_eq_some_iff.1 present
  refine ⟨playback.threads.take turn, playback.threads.drop (turn + 1), ?_, ?_⟩
  · rw [← found, List.getElem_cons_drop, List.take_append_drop]
  · rw [advance, present]
    simp only [List.set_eq_take_append_cons_drop, if_pos inBounds]

/-- A turn loses no capture and makes none up. -/
theorem perm_advance (playback : Playback) (turn : Nat) :
    ((playback.advance turn).captures ++ (playback.advance turn).toCome).Perm
      (playback.captures ++ playback.toCome) := by
  cases present : playback.threads[turn]? with
  | none =>
      rw [advance, present]
  | some thread =>
      obtain ⟨part, stage⟩ := thread
      obtain ⟨before, after, whole, advanced⟩ := advance_of_present present
      simp only [toCome, advanced, whole, List.flatMap_append, List.flatMap_cons,
        part.toCome_eq_captured_append stage, List.append_assoc]
      exact (List.perm_append_comm_assoc ..).append_left playback.captures

/-- However many turns the threads take, nothing is lost and nothing is made up. -/
theorem perm_run (playback : Playback) (schedule : List Nat) :
    ((playback.run schedule).captures ++ (playback.run schedule).toCome).Perm
      (playback.captures ++ playback.toCome) := by
  induction schedule generalizing playback with
  | nil => exact .refl _
  | cons turn later ih => exact (ih (playback.advance turn)).trans (perm_advance playback turn)

/-- When all threads have finished, what has been captured is what the channels leave. -/
theorem captures_run_start {parts : List Part} {schedule : List Nat}
    (finished : ((start parts).run schedule).isFinished = true) :
    ((start parts).run schedule).captures.Perm (parts.filterMap Part.capture?) := by
  have kept := perm_run (start parts) schedule
  rw [toCome_of_isFinished finished, List.append_nil, toCome_start] at kept
  exact kept

/-- Start threads that play channels on a recorder.  It refuses some rates, and what becomes
of each channel's write and drain before they reach its sink is given. -/
def startOnRecorder (unavailable : List Nat) (channels : List (Rendering × Reply × Reply)) :
    Playback :=
  start (channels.map (Part.onRecorder unavailable))

/-- Channels are played on a recorder, and all threads have finished, whatever the schedule.
Then the captures are, up to their order, what the channels leave, and the outcomes are those
of the channels in their order.  A channel whose rate is refused leaves nothing.  Any other
leaves one capture at its rate, with the whole buffer if the write reached the sink and else
empty, and drained if the drain reached it.  A channel has been played exactly when what it
leaves is the whole buffer, drained. -/
theorem captures_perm {unavailable : List Nat} {channels : List (Rendering × Reply × Reply)}
    {schedule : List Nat}
    (finished : ((startOnRecorder unavailable channels).run schedule).isFinished = true) :
    ((startOnRecorder unavailable channels).run schedule).captures.Perm
      (channels.filterMap fun channel => (Part.onRecorder unavailable channel).capture?) ∧
    ((startOnRecorder unavailable channels).run schedule).outcomes =
      channels.map (fun channel => (Part.onRecorder unavailable channel).outcome) ∧
    ∀ rendering writing draining,
      (Part.onRecorder unavailable (rendering, writing, draining)).capture? =
        (if rendering.rate ∈ unavailable then none
        else some {
          rate := rendering.rate
          samples := if writing = .accepted then rendering.samples else []
          drained := writing = .accepted ∧ draining = .accepted }) ∧
      ((Part.onRecorder unavailable (rendering, writing, draining)).outcome.ending.isPlayed =
          true ↔
        (Part.onRecorder unavailable (rendering, writing, draining)).capture? =
          some ⟨rendering.rate, rendering.samples, true⟩) := by
  have captured := captures_run_start finished
  rw [List.filterMap_map] at captured
  have enough := (isFinished_run_start _ schedule).1 finished
  have outcomes := outcomes_run_start enough
  rw [List.map_map] at outcomes
  refine ⟨captured, outcomes, ?_⟩
  intro rendering writing draining
  constructor
  · exact Part.capture?_onRecorder unavailable rendering writing draining
  · exact Part.isPlayed_outcome_iff _

/-- Four channels, two of them with one rate and one buffer.  The write of the second breaks
its thread, the rate of the third is refused, and the drain of the fourth fails. -/
def fourChannels : List (Rendering × Reply × Reply) :=
  [(⟨0, 8000, [1, 2], 10⟩, .accepted, .accepted),
   (⟨1, 8000, [1, 2], 10⟩, .broken, .accepted),
   (⟨2, 9000, [4], 10⟩, .accepted, .accepted),
   (⟨3, 7000, [5], 10⟩, .accepted, .refused "lost")]

theorem captures_perm_fourChannels :
    ((startOnRecorder [9000] fourChannels).run
      [3, 1, 0, 1, 3, 2, 1, 0, 3, 0, 3, 0]).isFinished = true ∧
    ((startOnRecorder [9000] fourChannels).run
      [3, 1, 0, 1, 3, 2, 1, 0, 3, 0, 3, 0]).captures.Perm
        [⟨8000, [1, 2], true⟩, ⟨8000, [], false⟩, ⟨7000, [5], false⟩] := by
  have finished : ((startOnRecorder [9000] fourChannels).run
      [3, 1, 0, 1, 3, 2, 1, 0, 3, 0, 3, 0]).isFinished = true := by
    decide
  exact ⟨finished, (captures_perm finished).1⟩

end Playback

end ScoreSynth
