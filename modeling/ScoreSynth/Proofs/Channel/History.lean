import ScoreSynth.Proofs.Channel

/-!
# The history of a channel

A channel can be kept in place while notes are added to it, and some of the notes may be
refused.  Adding a note then takes several steps that change the channel one after the
other, so a refusal in between could leave it half changed.  It never does
(`run_add`): a refused note leaves the channel as it was.

A history is a sequence of attempts on one channel.  Whatever was accepted and refused
in it, the channel stays consistent: its notes are the accepted ones in their order, and
its duration is the exact sum of theirs.
-/

namespace ScoreSynth.Channel

open Stepwise

/-- A change of a channel that is kept in place.  What has been changed before a refusal
stays changed. -/
abbrev Change (α : Type) := ExceptT Fault (StateM Channel) α

/-- Add a note at the end of a channel that is kept in place.  The note is checked
first, then the duration grows, and last the note is put in. -/
def add (note : Note) : Change Unit := do
  let channel ← get
  liftM (channel.settings.check note)
  let total := channel.duration + note.duration
  if total < Numeral.bound64 then
    modify fun channel => { channel with duration := total }
    modify fun channel => { channel with notes := channel.notes.push note }
  else throw (.durationOverflow note.line)

/-- Adding a note in place is adding it, and a refusal changes nothing. -/
theorem run_add (channel : Channel) (note : Note) :
    (add note).run channel =
      match channel.push note with
      | .ok next => (.ok (), next)
      | .error fault => (.error fault, channel) := by
  rw [add]
  change ((liftM (channel.settings.check note) : Change Unit) >>= _).run channel = _
  cases checked : channel.settings.check note with
  | error fault =>
      rw [push_eq_error.2 (.inl checked)]
      rfl
  | ok done =>
      have admitted := Settings.check_eq_ok_iff.1 checked
      change (ite _ _ _ : Change Unit).run channel = _
      by_cases fits : channel.duration + note.duration < Numeral.bound64
      · rw [push_eq_ok.2 ⟨admitted, fits, rfl⟩, if_pos fits, extend,
          Array.append_singleton]
        rfl
      · rw [push_eq_error.2 (.inr ⟨admitted, Nat.le_of_not_lt fits, rfl⟩), if_neg fits]
        rfl

/-! ## Attempts -/

/-- An attempt to add a note to a channel that is kept in place. -/
structure Attempt where
  before : Channel
  note : Note
  outcome : Except Fault Unit
  after : Channel
  deriving DecidableEq

/-- The attempt that adding a note to a channel is. -/
def attempt (channel : Channel) (note : Note) : Attempt :=
  ⟨channel, note, ((add note).run channel).1, ((add note).run channel).2⟩

/-- The attempts to add some notes, one after the other.  A refused note does not end
the history. -/
def history (channel : Channel) : List Note → List Attempt
  | [] => []
  | note :: others =>
      channel.attempt note :: history (channel.attempt note).after others

/-- The notes that were accepted. -/
def accepted (attempts : List Attempt) : List Note :=
  (attempts.filter (·.outcome.isOk)).map (·.note)

@[simp] theorem accepted_nil : accepted [] = [] := rfl

theorem accepted_append (earlier later : List Attempt) :
    accepted (earlier ++ later) = accepted earlier ++ accepted later := by
  rw [accepted, List.filter_append, List.map_append]
  rfl

theorem accepted_cons (first : Attempt) (later : List Attempt) :
    accepted (first :: later) = accepted [first] ++ accepted later :=
  accepted_append [first] later

/-- An attempt is refused with the fault of adding the note, and only then. -/
theorem outcome_attempt_eq_error {channel : Channel} {note : Note} {fault : Fault} :
    (channel.attempt note).outcome = .error fault ↔ channel.push note = .error fault := by
  rw [attempt, run_add]
  cases channel.push note with
  | ok next => simp
  | error other => simp

theorem after_attempt_of_error {channel : Channel} {note : Note} {fault : Fault}
    (refused : (channel.attempt note).outcome = .error fault) :
    (channel.attempt note).after = channel := by
  rw [attempt, run_add, outcome_attempt_eq_error.1 refused]

theorem after_attempt_of_push {channel next : Channel} {note : Note}
    (pushed : channel.push note = .ok next) :
    (channel.attempt note).after = next ∧ accepted [channel.attempt note] = [note] := by
  rw [attempt, run_add, pushed]
  exact ⟨rfl, rfl⟩

theorem accepted_attempt_of_error {channel : Channel} {note : Note} {fault : Fault}
    (refused : channel.push note = .error fault) :
    accepted [channel.attempt note] = [] := by
  rw [attempt, run_add, refused]
  rfl

/-! ## Consistency -/

/-- Whether a channel is what it should be after some notes were accepted. -/
structure Consistent (channel : Channel) (index : Nat) (settings : Settings)
    (held : List Note) : Prop where
  index_eq : channel.index = index
  settings_eq : channel.settings = settings
  notes_eq : channel.notes.toList = held
  checked : ∀ note ∈ held, settings.check note = .ok ()
  duration_eq : channel.duration = totalDuration held
  duration_lt : channel.duration < Numeral.bound64

variable {index : Nat} {settings : Settings} {held : List Note}

theorem consistent_empty (index : Nat) (settings : Settings) :
    (empty index settings).Consistent index settings [] := by
  constructor
  case duration_lt => exact (by decide : 0 < Numeral.bound64)
  case checked => exact List.forall_mem_nil _
  all_goals rfl

theorem totalDuration_append (earlier later : List Note) :
    totalDuration (earlier ++ later) = totalDuration earlier + totalDuration later := by
  induction earlier with
  | nil => simp
  | cons note others ih => simp only [List.cons_append, totalDuration_cons, ih, Nat.add_assoc]

/-- One attempt keeps a channel consistent, whether the note is accepted or refused. -/
theorem Consistent.attempt {channel : Channel}
    (consistent : channel.Consistent index settings held) (note : Note) :
    (channel.attempt note).after.Consistent index settings
      (held ++ accepted [channel.attempt note]) := by
  cases pushed : channel.push note with
  | error fault =>
      rw [accepted_attempt_of_error pushed, List.append_nil,
        after_attempt_of_error (outcome_attempt_eq_error.2 pushed)]
      exact consistent
  | ok next =>
      rcases after_attempt_of_push pushed with ⟨after, kept⟩
      obtain ⟨admitted, fits, grown⟩ := push_eq_ok.1 pushed
      rw [after, kept, grown]
      constructor
      case index_eq => exact consistent.index_eq
      case settings_eq => exact consistent.settings_eq
      case notes_eq => simp [extend, consistent.notes_eq]
      case checked =>
        rw [consistent.settings_eq] at admitted
        refine List.forall_mem_append.2 ⟨consistent.checked, ?_⟩
        exact List.forall_mem_singleton.2 (Settings.check_eq_ok_iff.2 admitted)
      case duration_eq =>
        rw [duration_extend, consistent.duration_eq, totalDuration_append]
      case duration_lt => simpa using fits

/-- Every attempt of a history is made on a consistent channel. -/
theorem Consistent.of_history {channel : Channel} {notes : List Note}
    {earlier later : List Attempt} {attempt : Attempt}
    (consistent : channel.Consistent index settings held)
    (made : channel.history notes = earlier ++ attempt :: later) :
    attempt.before.Consistent index settings (held ++ accepted earlier) ∧
      attempt = attempt.before.attempt attempt.note := by
  induction earlier generalizing channel held notes with
  | nil =>
      cases notes with
      | nil => cases made
      | cons note others =>
          cases made
          rw [accepted_nil, List.append_nil]
          exact ⟨consistent, rfl⟩
  | cons first earlier ih =>
      cases notes with
      | nil => cases made
      | cons note others =>
          rcases List.cons.inj made with ⟨rfl, madeLater⟩
          rw [accepted_cons, ← List.append_assoc]
          exact ih (consistent.attempt note) madeLater

theorem map_note_history (channel : Channel) (notes : List Note) :
    (channel.history notes).map (·.note) = notes := by
  induction notes generalizing channel with
  | nil => rfl
  | cons note others ih => rw [history, List.map_cons, ih]; rfl

/-- A sum that fits leaves no fault of a check that would break the program. -/
theorem breaks_eq_false_of_check {note : Note} {fault : Fault} (sum : settings.SumFits note)
    (failed : settings.check note = .error fault) : fault.breaks = false := by
  rcases Settings.check_eq_error_iff.1 failed with
    ⟨_, ⟨_, rfl⟩ | ⟨_, _, ⟨overflow, _⟩ | ⟨_, _, rfl⟩⟩⟩
  · rfl
  · exact absurd sum overflow
  · rfl

/-- Notes are added to an empty channel, and no sum of their pitches and the
transposition overflows.  After every attempt the channel is consistent with the notes
accepted so far.  An attempt is refused exactly when the note fails its check, or passes
it and would make the exact sum of the durations too large; a refusal is reported, and
leaves the channel as it was. -/
theorem consistent_of_history {index : Nat} {settings : Settings} {notes : List Note}
    {earlier later : List Attempt} {attempt : Attempt}
    (sums : ∀ note ∈ notes, settings.SumFits note)
    (made : (empty index settings).history notes = earlier ++ attempt :: later) :
    notes = earlier.map (·.note) ++ attempt.note :: later.map (·.note) ∧
      attempt.before.Consistent index settings (accepted earlier) ∧
      attempt.after.Consistent index settings (accepted (earlier ++ [attempt])) ∧
      ∀ fault,
        (attempt.outcome = .error fault ↔
          settings.check attempt.note = .error fault ∨
            settings.check attempt.note = .ok () ∧
              Numeral.bound64 ≤ totalDuration (accepted earlier) + attempt.note.duration ∧
              fault = .durationOverflow attempt.note.line) ∧
        (attempt.outcome = .error fault →
          attempt.after = attempt.before ∧ fault.breaks = false) := by
  rcases (consistent_empty index settings).of_history made with ⟨consistent, same⟩
  rw [List.nil_append] at consistent
  have whole : notes = earlier.map (·.note) ++ attempt.note :: later.map (·.note) := by
    rw [← map_note_history (empty index settings) notes, made, List.map_append, List.map_cons]
  have sum : settings.SumFits attempt.note := sums _ (by rw [whole]; simp)
  have grown := consistent.attempt attempt.note
  rw [← same] at grown
  have exactly (fault : Fault) : attempt.outcome = .error fault ↔
      settings.check attempt.note = .error fault ∨
        settings.check attempt.note = .ok () ∧
          Numeral.bound64 ≤ totalDuration (accepted earlier) + attempt.note.duration ∧
          fault = .durationOverflow attempt.note.line := by
    rw [same, outcome_attempt_eq_error, push_eq_error, consistent.settings_eq,
      consistent.duration_eq, ← Settings.check_eq_ok_iff]
    rfl
  refine ⟨whole, consistent, ?_, fun fault => ⟨exactly fault, fun refused => ⟨?_, ?_⟩⟩⟩
  · rw [accepted_append]
    exact grown
  · rw [same] at refused ⊢
    exact after_attempt_of_error refused
  · rcases (exactly fault).1 refused with failed | ⟨_, _, rfl⟩
    · exact breaks_eq_false_of_check sum failed
    · rfl

/-- The settings of a voice that sounds an octave higher than it is written. -/
def octaveUp : Settings :=
  ⟨Settings.volumeOfPercent 100, 12, SampleRate.standard, .sinwave⟩

/-- A note that leaves room for five milliseconds, a key that is too high for an octave
more, a drum, a rest that is too long, and a rest that fits exactly. -/
def brimful : List Note :=
  [⟨49, 18446744073709551610, 1⟩, ⟨95, 10, 2⟩, ⟨102, 10, 2⟩, ⟨0, 10, 3⟩, ⟨0, 5, 4⟩]

theorem consistent_of_history_brimful :
    (∀ note ∈ brimful, octaveUp.SumFits note) ∧
      ∃ earlier attempt later,
        (empty 0 octaveUp).history brimful = earlier ++ attempt :: later ∧
        attempt.outcome = .error (.durationOverflow 3) ∧ attempt.after = attempt.before ∧
        attempt.after.Consistent 0 octaveUp [⟨49, 18446744073709551610, 1⟩] := by
  have sums : ∀ note ∈ brimful, octaveUp.SumFits note := by decide
  have made : (empty 0 octaveUp).history brimful =
      ((empty 0 octaveUp).history brimful).take 3 ++
        attempt ⟨0, octaveUp, #[⟨49, 18446744073709551610, 1⟩], 18446744073709551610⟩
          ⟨0, 10, 3⟩ ::
        ((empty 0 octaveUp).history brimful).drop 4 := by
    decide +kernel
  rcases consistent_of_history sums made with ⟨_, _, grown, refused⟩
  have full := ((refused (.durationOverflow 3)).1).2 (.inr (by decide))
  exact ⟨sums, _, _, _, made, full, ((refused _).2 full).1, grown⟩

end ScoreSynth.Channel
