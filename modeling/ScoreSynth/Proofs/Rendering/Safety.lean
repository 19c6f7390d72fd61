import ScoreSynth.Proofs.Score.Validity
import ScoreSynth.Rendering

/-!
# Rendering a valid score

Every step of rendering fails only for one reason, that a sound is too long for a
buffer.  The instruments check the pitch of every note once more, but a score that
has been read holds no note that fails this check.
-/

namespace ScoreSynth

open Stepwise

/-- Whether a fault says that a sound is too long. -/
def Fault.IsTooLong (fault : Fault) : Prop :=
  ∃ duration rate, fault = .tooLong duration rate

/-- Whether a computation can fail with faults of one kind only, whatever the tape. -/
def Synthesis.FailsOnly {α : Type} (allowed : Fault → Prop) (work : Synthesis α) : Prop :=
  ∀ tape, Stepwise.FailsOnly allowed (work.run tape).1

namespace Synthesis

variable {α β : Type} {allowed : Fault → Prop}

theorem failsOnly_pure (value : α) : FailsOnly allowed (pure value) :=
  fun _ => failsOnly_ok value

theorem failsOnly_throw {fault : Fault} (kind : allowed fault) :
    FailsOnly allowed (throw fault : Synthesis α) :=
  fun _ => failsOnly_error kind

theorem failsOnly_liftExcept {work : Except Fault α}
    (kind : Stepwise.FailsOnly allowed work) :
    FailsOnly allowed (liftM work : Synthesis α) :=
  fun _ => kind

/-- Drawing random words never fails. -/
theorem failsOnly_liftState (work : StateM RandomTape α) :
    FailsOnly allowed (liftM work : Synthesis α) :=
  fun tape => failsOnly_ok (work.run tape).1

/-- The second of two steps takes the tape over from the first. -/
theorem run_bind (first : Synthesis α) (next : α → Synthesis β) (tape : RandomTape) :
    (first >>= next).run tape =
      match first.run tape with
      | (.error fault, rest) => (.error fault, rest)
      | (.ok value, rest) => (next value).run rest := by
  change (match first.run tape with
      | (outcome, rest) => ExceptT.bindCont next outcome rest) = _
  cases first.run tape with
  | mk outcome rest => cases outcome <;> rfl

/-- On a tape that is known, steps are steps that may fail. -/
theorem fst_run_bind (first : Synthesis α) (next : α → Synthesis β) (tape : RandomTape) :
    ((first >>= next).run tape).1 =
      (first.run tape).1 >>= fun value => ((next value).run (first.run tape).2).1 := by
  rw [run_bind]
  cases first.run tape with
  | mk outcome rest => cases outcome <;> rfl

theorem failsOnly_bind {first : Synthesis α} {next : α → Synthesis β}
    (before : FailsOnly allowed first) (after : ∀ value, FailsOnly allowed (next value)) :
    FailsOnly allowed (first >>= next) := by
  intro tape
  rw [fst_run_bind]
  exact Stepwise.failsOnly_bind (before tape) fun value => after value _

theorem failsOnly_mapM {step : α → Synthesis β} {elements : List α}
    (each : ∀ element ∈ elements, FailsOnly allowed (step element)) :
    FailsOnly allowed (elements.mapM step) :=
  closed_mapM (FailsOnly allowed) failsOnly_pure failsOnly_bind each

end Synthesis

/-! ## Counting samples -/

namespace Sample

theorem failsOnly_count (duration rate : Nat) :
    FailsOnly Fault.IsTooLong (count duration rate) := by
  apply failsOnly_ite
  · exact failsOnly_ok _
  · exact failsOnly_error ⟨duration, rate, rfl⟩

theorem failsOnly_bufferSizeIn (grants : Nat → Bool) (duration rate : Nat) :
    FailsOnly Fault.IsTooLong (bufferSizeIn grants duration rate) := by
  apply failsOnly_bind
  · exact failsOnly_count duration rate
  intro size
  apply failsOnly_ite
  · exact failsOnly_ok size
  · exact failsOnly_error ⟨duration, rate, rfl⟩

theorem failsOnly_silenceIn (grants : Nat → Bool) (duration : Nat) :
    FailsOnly Fault.IsTooLong (silenceIn grants duration) := by
  apply failsOnly_bind
  · exact failsOnly_bufferSizeIn grants duration SampleRate.standard
  intro size
  exact failsOnly_ok _

end Sample

namespace Channel

theorem failsOnly_addCount (channel : Channel) (total : Nat) (note : Note) :
    FailsOnly Fault.IsTooLong (channel.addCount total note) := by
  apply failsOnly_bind
  · exact Sample.failsOnly_count note.duration (channel.rateOf note)
  intro size
  apply failsOnly_ite
  · exact failsOnly_ok _
  · exact failsOnly_error ⟨note.duration, channel.rateOf note, rfl⟩

theorem failsOnly_size (channel : Channel) : FailsOnly Fault.IsTooLong channel.size :=
  failsOnly_foldlM fun total note _ => channel.failsOnly_addCount total note

end Channel

/-! ## Playing notes -/

/-- A voice that has a buffer plays. -/
theorem Voice.failsOnly_fill {allowed : Fault → Prop} (voice : Voice) (pitch : Pitch)
    (size : Nat) : Synthesis.FailsOnly allowed (voice.fill pitch size) := by
  rw [fill]
  split
  · exact Synthesis.failsOnly_liftState _
  · exact Synthesis.failsOnly_pure _

/-- A voice that plays a pitch fails only for want of a buffer. -/
theorem Voice.failsOnly_soundIn {voice : Voice} {pitch : Pitch} (grants : Nat → Bool)
    (duration : Nat) (plays : voice.instrument.plays pitch = true) :
    Synthesis.FailsOnly Fault.IsTooLong (voice.soundIn grants pitch duration) := by
  apply Synthesis.failsOnly_bind
  · apply Synthesis.failsOnly_liftExcept
    rw [Instrument.check, if_pos plays]
    exact failsOnly_ok ()
  intro checked
  apply Synthesis.failsOnly_bind
  · exact Synthesis.failsOnly_liftExcept (Sample.failsOnly_bufferSizeIn grants duration voice.rate)
  intro size
  exact voice.failsOnly_fill pitch size

namespace Settings

/-- The pitch that sounds for a note that can be played is one that the instrument
plays. -/
theorem Plays.sounding {settings : Settings} {note : Note} (plays : settings.Plays note)
    (sounds : note.isRest = false) :
    ∃ sounding, settings.soundingPitch note = .ok sounding ∧
      settings.instrument.plays sounding = true := by
  obtain rest | ⟨_, own⟩ := plays_iff.1 plays
  · exact absurd rest (of_decide_eq_false sounds)
  · exact ⟨_, soundingPitch_of_sumFits own.mem_bounds, own.plays⟩

end Settings

namespace Channel

/-- A note that can be played is played, or is too long. -/
theorem failsOnly_pieceIn {channel : Channel} {note : Note} (grants : Nat → Bool)
    (plays : channel.settings.Plays note) :
    Synthesis.FailsOnly Fault.IsTooLong (channel.pieceIn grants note) := by
  rw [pieceIn]
  by_cases silent : note.isRest = true
  · rw [if_pos silent]
    exact Synthesis.failsOnly_liftExcept (Sample.failsOnly_silenceIn grants note.duration)
  · rw [if_neg silent]
    rcases plays.sounding (by simpa using silent) with ⟨sounding, sum, played⟩
    rw [sum]
    exact Voice.failsOnly_soundIn grants note.duration played

theorem failsOnly_collect {channel : Channel} {memory : Memory} {notes : List Note}
    (plays : ∀ note ∈ notes, channel.settings.Plays note) (request : Nat)
    (samples : List Sample) :
    Synthesis.FailsOnly Fault.IsTooLong (channel.collect memory request samples notes) := by
  induction notes generalizing request samples with
  | nil => exact Synthesis.failsOnly_pure samples
  | cons note others ih =>
      obtain ⟨first, later⟩ := List.forall_mem_cons.1 plays
      apply Synthesis.failsOnly_bind
      · exact failsOnly_pieceIn (memory.grants request) first
      intro piece
      exact ih later (request + 1) (samples ++ piece)

theorem failsOnly_renderIn {channel : Channel} (memory : Memory)
    (plays : ∀ note ∈ channel.notes, channel.settings.Plays note) :
    Synthesis.FailsOnly Fault.IsTooLong (channel.renderIn memory) := by
  apply Synthesis.failsOnly_bind
  · exact Synthesis.failsOnly_liftExcept channel.failsOnly_size
  intro size
  split
  · exact Synthesis.failsOnly_throw ⟨_, _, rfl⟩
  apply Synthesis.failsOnly_bind
  · apply failsOnly_collect
    intro note member
    exact plays note (by simpa using member)
  intro samples
  exact Synthesis.failsOnly_pure _

end Channel

namespace Score

/-- A valid score is rendered, or one of its channels is too long. -/
theorem failsOnly_render {score : Score} (valid : score.Valid) :
    Synthesis.FailsOnly Fault.IsTooLong score.render := by
  apply Synthesis.failsOnly_mapM
  intro channel member
  rcases List.getElem?_of_mem member with ⟨position, found⟩
  exact Channel.failsOnly_renderIn .ample (valid.channels_valid position channel found).plays

/-- A score that comes from a document is valid, every note of it that is not a rest
passes the check of the instrument that plays it, and rendering it fails only if one of
its sounds is too long. -/
theorem safe_of_parse {source : List Char} {score : Score}
    (read : parse source = .ok score) :
    score.Valid ∧
      (∀ channel ∈ score.channels, ∀ note ∈ channel.notes, note.isRest = false →
        ∃ sounding, channel.settings.soundingPitch note = .ok sounding ∧
          channel.settings.instrument.check sounding = .ok ()) ∧
      ∀ tape, (∃ renderings, (score.render.run tape).1 = .ok renderings) ∨
        ∃ duration rate, (score.render.run tape).1 = .error (.tooLong duration rate) := by
  have valid := valid_of_parse read
  constructor
  · exact valid
  constructor
  · intro channel member note noted sounds
    rcases List.getElem?_of_mem member with ⟨position, found⟩
    have plays := (valid.channels_valid position channel found).plays note noted
    rcases plays.sounding sounds with ⟨sounding, sum, played⟩
    exact ⟨sounding, sum, if_pos played⟩
  · intro tape
    cases result : (score.render.run tape).1 with
    | ok renderings => exact .inl ⟨renderings, rfl⟩
    | error fault =>
        rcases failsOnly_render valid tape fault result with ⟨duration, rate, equal⟩
        exact .inr ⟨duration, rate, by rw [equal]⟩

/-- A document with a transposed voice that rests, and with drums. -/
def duet : List Char :=
  Text.joinLines
    [Document.header, "globalconfig tempo 200% endglobalconfig".toList,
     "channel config 80 transpos=-12 16kHz oboe endconfig".toList,
     "loop 2 A4,100 pause,50 endloop endchannel".toList,
     "config 100 0 default drum endconfig click,500 endchannel".toList]

theorem safe_of_parse_duet :
    ∃ score, parse duet = .ok score ∧ score.Valid ∧
      (∀ channel ∈ score.channels, ∀ note ∈ channel.notes, note.isRest = false →
        ∃ sounding, channel.settings.soundingPitch note = .ok sounding ∧
          channel.settings.instrument.check sounding = .ok ()) ∧
      ∀ tape, (∃ renderings, (score.render.run tape).1 = .ok renderings) ∨
        ∃ duration rate, (score.render.run tape).1 = .error (.tooLong duration rate) := by
  have readable : (parse duet).toOption.isSome = true := by decide +kernel
  cases read : parse duet with
  | error fault =>
      rw [read] at readable
      cases readable
  | ok score => exact ⟨score, rfl, safe_of_parse read⟩

end Score

end ScoreSynth
