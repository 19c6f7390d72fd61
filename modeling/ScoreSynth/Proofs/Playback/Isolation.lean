import ScoreSynth.Proofs.Playback.Threads

/-!
# Isolation of channels

In a playback the threads are advanced in any order.  A turn of one thread leaves
every other thread as it was, so neither the stage of a thread nor the calls it has
made depend on the order: only the number of its own turns counts.  When all
threads have finished, the outcomes are those of the channels alone, in the order of
the channels, whatever the schedule and whatever became of the other channels.
-/

namespace ScoreSynth.Playback

/-- A turn of one thread leaves the other threads as they were. -/
theorem getElem?_threads_advance (playback : Playback) (turn position : Nat) :
    (playback.advance turn).threads[position]? =
      playback.threads[position]?.map fun (part, stage) =>
        (part, if position = turn then part.next stage else stage) := by
  unfold advance
  cases present : playback.threads[turn]? with
  | none =>
      by_cases same : position = turn
      · subst same
        simp [present]
      · simp [same]
  | some thread =>
      obtain ⟨part, stage⟩ := thread
      have inBounds : turn < playback.threads.length :=
        (List.getElem?_eq_some_iff.1 present).1
      by_cases same : position = turn
      · subst same
        simp only [List.getElem?_set_self inBounds, present, Option.map_some, if_true]
      · simp [same, List.getElem?_set_ne (Ne.symm same)]

/-- A thread is as far as the number of its own turns says. -/
theorem getElem?_threads_run (playback : Playback) (schedule : List Nat)
    (position : Nat) :
    (playback.run schedule).threads[position]? =
      playback.threads[position]?.map fun (part, stage) =>
        (part, part.advanced stage (schedule.count position)) := by
  induction schedule generalizing playback with
  | nil => simp [run, Part.advanced]
  | cons turn later ih =>
      have rest := ih (playback.advance turn)
      rw [getElem?_threads_advance, Option.map_map] at rest
      apply rest.trans
      apply congrArg (Option.map · _)
      funext thread
      rcases thread with ⟨part, stage⟩
      by_cases same : position = turn
      · subst same
        simp [Part.advanced]
      · simp [same, List.count_cons_of_ne (Ne.symm same)]

theorem getElem?_threads_run_start (parts : List Part) (schedule : List Nat)
    (position : Nat) :
    ((start parts).run schedule).threads[position]? =
      parts[position]?.map fun part =>
        (part, part.advanced .opening (schedule.count position)) := by
  simp [getElem?_threads_run, start, Function.comp_def]

/-! ## The calls of a run -/

/-- The call that a thread makes in its turn. -/
def callAt (playback : Playback) (turn : Nat) : Option Call :=
  playback.threads[turn]?.bind fun (part, stage) => part.call? stage

/-- The calls of a run in the order in which they are made, each with the position
of the thread that makes it. -/
def log (playback : Playback) : List Nat → List (Nat × Call)
  | [] => []
  | turn :: later =>
      (playback.callAt turn).toList.map (turn, ·) ++ (playback.advance turn).log later

/-- The calls that one thread has made. -/
def callsOf (position : Nat) (log : List (Nat × Call)) : List Call :=
  (log.filter fun (turn, _) => turn = position).map Prod.snd

theorem callsOf_append (position : Nat) (before after : List (Nat × Call)) :
    callsOf position (before ++ after) =
      callsOf position before ++ callsOf position after := by
  simp [callsOf]

theorem callsOf_map_self (position : Nat) (calls : List Call) :
    callsOf position (calls.map (position, ·)) = calls := by
  simp [callsOf, List.filter_map, Function.comp_def]

theorem callsOf_map_of_ne {position turn : Nat} (other : turn ≠ position)
    (calls : List Call) : callsOf position (calls.map (turn, ·)) = [] := by
  simp [callsOf, List.filter_map, Function.comp_def, other]

/-- The calls of a thread are those of as many steps as it has had turns. -/
theorem callsOf_log (playback : Playback) (schedule : List Nat) {position : Nat}
    {part : Part} {stage : Stage}
    (present : playback.threads[position]? = some (part, stage)) :
    callsOf position (playback.log schedule) =
      part.callsFrom stage (schedule.count position) := by
  induction schedule generalizing playback stage with
  | nil => rfl
  | cons turn later ih =>
      have next := getElem?_threads_advance playback turn position
      rw [present, Option.map_some] at next
      have rest := ih (playback.advance turn) next
      rw [log, callsOf_append, rest]
      by_cases same : position = turn
      · subst same
        rw [callsOf_map_self, List.count_cons_self, Part.callsFrom]
        simp [callAt, present]
      · rw [callsOf_map_of_ne (Ne.symm same), List.count_cons_of_ne (Ne.symm same)]
        simp [same]

/-! ## Finished runs -/

/-- A run has finished exactly when every thread has had a turn for each of its
calls. -/
theorem isFinished_run_start (parts : List Part) (schedule : List Nat) :
    ((start parts).run schedule).isFinished = true ↔
      ∀ position part, parts[position]? = some part →
        part.calls.length ≤ schedule.count position := by
  simp only [isFinished, List.all_eq_true, List.mem_iff_getElem?,
    getElem?_threads_run_start]
  constructor
  · intro finished position part present
    have ended := finished (part, part.advanced .opening (schedule.count position))
      ⟨position, by simp [present]⟩
    rw [Part.ending?_advanced] at ended
    refine Decidable.byContradiction fun tooFew => ?_
    rw [if_neg tooFew] at ended
    cases ended
  · intro enough thread found
    rcases found with ⟨position, present⟩
    obtain ⟨part, stands, equal⟩ := Option.map_eq_some_iff.1 present
    cases equal
    rw [Part.ending?_advanced, if_pos (enough position _ stands)]
    rfl

/-- When every thread has had a turn for each of its calls, every thread has come to
the ending of its channel. -/
theorem outcomes_run_start {parts : List Part} {schedule : List Nat}
    (enough : ∀ position part, parts[position]? = some part →
      part.calls.length ≤ schedule.count position) :
    ((start parts).run schedule).outcomes = parts.map Part.outcome := by
  have threads : ((start parts).run schedule).threads.map
      (fun (part, stage) => (part, stage.ending?)) =
      parts.map fun part => (part, some part.outcome.ending) := by
    refine List.ext_getElem? fun position => ?_
    rw [List.getElem?_map, List.getElem?_map, getElem?_threads_run_start, Option.map_map]
    cases present : parts[position]? with
    | none => rfl
    | some part =>
        simp [Part.ending?_advanced, if_pos (enough position part present)]
  have outcomes : ((start parts).run schedule).outcomes =
      (((start parts).run schedule).threads.map
        (fun (part, stage) => (part, stage.ending?))).filterMap fun (part, ending?) =>
          ending?.map fun ending => ⟨part.rendering.index, ending⟩ := by
    rw [List.filterMap_map]
    rfl
  rw [outcomes, threads, List.filterMap_map, ← List.filterMap_eq_map]
  rfl

theorem count_inOrder (channels position : Nat) :
    (inOrder channels).count position = if position < channels then longestThread else 0 := by
  induction channels with
  | zero => simp [inOrder]
  | succ channels ih =>
      have append : inOrder (channels + 1) =
          inOrder channels ++ List.replicate longestThread channels := by
        simp [inOrder, List.range_succ]
      rw [append, List.count_append, ih, List.count_replicate]
      rcases Nat.lt_trichotomy position channels with before | same | after
      · simp [before, Nat.lt_succ_of_lt before, Nat.ne_of_gt before]
      · simp [same]
      · have behind : ¬ position < channels + 1 := by omega
        simp [behind, Nat.lt_asymm after, Nat.ne_of_lt after]

/-- The schedule that plays one channel after the other finishes every thread. -/
theorem length_calls_le_count_inOrder (parts : List Part) {position : Nat} {part : Part}
    (present : parts[position]? = some part) :
    part.calls.length ≤ (inOrder parts.length).count position := by
  have inBounds : position < parts.length := (List.getElem?_eq_some_iff.1 present).1
  rw [count_inOrder, if_pos inBounds]
  exact part.length_calls_le

/-- Channels do not disturb one another.  Under every schedule each thread makes the
calls of its own channel, in their order, and as many of them as it has turns.  The
run has finished exactly when every thread has had its turns, which one channel
after the other they have.  The outcomes then are one for each channel, in the order
of the channels, and each is decided by the replies to its own channel's calls. -/
theorem outcomes_eq_map_outcome (parts : List Part) (schedule : List Nat) :
    (∀ position part, parts[position]? = some part →
      callsOf position ((start parts).log schedule) =
        part.calls.take (schedule.count position)) ∧
    (((start parts).run schedule).isFinished = true ↔
      ∀ position part, parts[position]? = some part →
        part.calls.length ≤ schedule.count position) ∧
    (((start parts).run schedule).isFinished = true →
      ((start parts).run schedule).outcomes = parts.map Part.outcome) ∧
    (play parts).isFinished = true ∧ (play parts).outcomes = parts.map Part.outcome := by
  have inOrderEnough : ∀ position part, parts[position]? = some part →
      part.calls.length ≤ (inOrder parts.length).count position :=
    fun _ _ present => length_calls_le_count_inOrder parts present
  refine ⟨?_, isFinished_run_start parts schedule, ?_, ?_, ?_⟩
  · intro position part present
    have thread : (start parts).threads[position]? = some (part, .opening) := by
      simp [start, present]
    rw [callsOf_log _ _ thread, Part.callsFrom_eq_take, Part.callsAt]
  · intro finished
    exact outcomes_run_start ((isFinished_run_start parts schedule).1 finished)
  · exact (isFinished_run_start parts _).2 inOrderEnough
  · exact outcomes_run_start inOrderEnough

/-- Three channels that share one index.  The first is played, the second breaks
when it writes, and the third finds its output busy. -/
def threeChannels : List Part :=
  [⟨⟨7, 8000, [1, 2], 10⟩, ⟨.accepted, .accepted, .accepted⟩⟩,
   ⟨⟨7, 8000, [3], 10⟩, ⟨.accepted, .broken, .accepted⟩⟩,
   ⟨⟨7, 9000, [4], 10⟩, ⟨.refused "busy", .accepted, .accepted⟩⟩]

theorem outcomes_threeChannels :
    ((start threeChannels).run [1, 0, 2, 1, 0, 0, 1, 0]).isFinished = true ∧
    ((start threeChannels).run [1, 0, 2, 1, 0, 0, 1, 0]).outcomes =
      [⟨7, .played 2⟩, ⟨7, .dropped "playback thread panicked"⟩, ⟨7, .dropped "busy"⟩] := by
  have finished :
      ((start threeChannels).run [1, 0, 2, 1, 0, 0, 1, 0]).isFinished = true := by decide
  refine ⟨finished, ?_⟩
  exact (outcomes_eq_map_outcome threeChannels [1, 0, 2, 1, 0, 0, 1, 0]).2.2.1 finished

end ScoreSynth.Playback
