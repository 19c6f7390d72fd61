import Mathlib.Data.List.Induction
import ScoreSynth.Proofs.Rendering.Pieces

/-!
# The size found first and the samples collected later

The size of a channel is found note by note before anything is played, and the samples are
collected note by note afterwards.  Both passes count every note alike, so once a size is
found no note is too long to be counted again, the samples never outgrow the buffer that was
asked for, and in the end they fill it.  If no size is found, then there is a first note
that is too long, or makes the whole too long (`Channel.Exceeds`), and it is reported before
any note is looked at for its pitch.
-/

namespace ScoreSynth

open Stepwise

namespace Synthesis

variable {α β : Type}

theorem run_bind_eq_error {first : Synthesis α} {next : α → Synthesis β} {fault : Fault}
    {tape rest : RandomTape} :
    (first >>= next).run tape = (.error fault, rest) ↔
      first.run tape = (.error fault, rest) ∨
        ∃ value between, first.run tape = (.ok value, between) ∧
          (next value).run between = (.error fault, rest) := by
  rw [run_bind]
  constructor
  · intro failed
    cases began : first.run tape with
    | mk outcome between =>
        rw [began] at failed
        cases outcome with
        | error other =>
            cases failed
            exact .inl rfl
        | ok value => exact .inr ⟨value, between, rfl, failed⟩
  · intro failed
    obtain began | ⟨value, between, began, followed⟩ := failed
    · rw [began]
    · rw [began]
      exact followed

theorem run_liftExcept_eq_error {work : Except Fault α} {fault : Fault} {tape rest : RandomTape} :
    (liftM work : Synthesis α).run tape = (.error fault, rest) ↔
      work = .error fault ∧ tape = rest := by
  constructor
  · intro failed
    exact ⟨congrArg Prod.fst failed, congrArg Prod.snd failed⟩
  · intro failed
    obtain ⟨rfl, rfl⟩ := failed
    rfl

end Synthesis

/-! ## The first pass -/

namespace Channel

variable {channel : Channel}

/-- Whether a note is too long by itself, or together with those before it. -/
def Exceeds (channel : Channel) (earlier : List Note) (note : Note) : Prop :=
  Numeral.bound64 ≤ note.duration * channel.rateOf note ∨
    Numeral.bound64 ≤ channel.totalExtent earlier + channel.extent note

/-- Whether no note is too long, alone or together with those before it. -/
def Countable (channel : Channel) (notes : List Note) : Prop :=
  ∀ earlier note later, notes = earlier ++ note :: later → ¬ channel.Exceeds earlier note

instance (channel : Channel) (earlier : List Note) (note : Note) :
    Decidable (channel.Exceeds earlier note) :=
  inferInstanceAs (Decidable (_ ∨ _))

@[simp] theorem totalExtent_append (channel : Channel) (earlier later : List Note) :
    channel.totalExtent (earlier ++ later) =
      channel.totalExtent earlier + channel.totalExtent later := by
  induction earlier with
  | nil => simp
  | cons note earlier ih => simp [ih, Nat.add_assoc]

/-- A note is counted behind those before it, unless it is too long. -/
theorem addCount_totalExtent (channel : Channel) (earlier : List Note) (note : Note) :
    channel.addCount (channel.totalExtent earlier) note =
      if channel.Exceeds earlier note then .error (.tooLong note.duration (channel.rateOf note))
      else .ok (channel.totalExtent earlier + channel.extent note) := by
  have total (size : Nat) : (if size < Numeral.bound64 then pure size
      else throw (.tooLong note.duration (channel.rateOf note)) : Except Fault Nat) =
        if Numeral.bound64 ≤ size then .error (.tooLong note.duration (channel.rateOf note))
        else .ok size := by
    by_cases fits : size < Numeral.bound64
    · rw [if_pos fits, if_neg (Nat.not_le.2 fits), pure_eq_ok]
    · rw [if_neg fits, if_pos (Nat.not_lt.1 fits), throw_eq_error]
  rw [addCount, Sample.count]
  by_cases alone : note.duration * channel.rateOf note < Numeral.bound64
  · have exceeds : channel.Exceeds earlier note ↔
        Numeral.bound64 ≤ channel.totalExtent earlier + channel.extent note :=
      or_iff_right (Nat.not_le.2 alone)
    rw [if_pos alone, ok_bind]
    simp only [exceeds]
    exact total _
  · have exceeds : channel.Exceeds earlier note := .inl (Nat.not_lt.1 alone)
    rw [if_neg alone, error_bind, if_pos exceeds]

theorem countable_nil (channel : Channel) : channel.Countable [] := by
  intro earlier note later whole
  cases earlier <;> cases whole

theorem countable_concat {notes : List Note} {last : Note} :
    channel.Countable (notes ++ [last]) ↔
      channel.Countable notes ∧ ¬ channel.Exceeds notes last := by
  constructor
  · intro countable
    refine ⟨fun earlier note later whole => ?_, countable notes last [] rfl⟩
    exact countable earlier note (later ++ [last]) (by rw [whole, List.append_assoc]; rfl)
  · intro countable earlier note later whole
    rcases List.eq_nil_or_concat later with rfl | ⟨front, other, rfl⟩
    · rcases List.append_inj' whole rfl with ⟨rfl, same⟩
      cases same
      exact countable.2
    · rw [List.concat_eq_append, ← List.cons_append, ← List.append_assoc] at whole
      exact countable.1 earlier note front (List.append_inj' whole rfl).1

/-- The first pass gets through exactly if no note is too long. -/
theorem foldlM_addCount_eq_ok {notes : List Note} {total : Nat} :
    notes.foldlM channel.addCount 0 = .ok total ↔
      channel.Countable notes ∧ total = channel.totalExtent notes := by
  induction notes using List.reverseRecOn generalizing total with
  | nil => simp [countable_nil, eq_comm]
  | append_singleton notes last ih =>
      simp only [List.foldlM_append, List.foldlM_cons, List.foldlM_nil, bind_pure, bind_eq_ok, ih,
        countable_concat]
      constructor
      · intro counted
        rcases counted with ⟨_, ⟨countable, rfl⟩, added⟩
        rw [addCount_totalExtent] at added
        split at added
        · cases added
        · next fits =>
            cases added
            exact ⟨⟨countable, fits⟩, by simp⟩
      · intro counted
        rcases counted with ⟨⟨countable, fits⟩, rfl⟩
        refine ⟨_, ⟨countable, rfl⟩, ?_⟩
        rw [addCount_totalExtent, if_neg fits]
        simp

theorem size_eq_ok {total : Nat} :
    channel.size = .ok total ↔
      channel.Countable channel.notes.toList ∧ total = channel.totalExtent channel.notes.toList :=
  foldlM_addCount_eq_ok

/-- The first pass stops at the first note that is too long. -/
theorem size_eq_error {fault : Fault} :
    channel.size = .error fault ↔
      ∃ earlier note later, channel.notes.toList = earlier ++ note :: later ∧
        channel.Countable earlier ∧ channel.Exceeds earlier note ∧
        fault = .tooLong note.duration (channel.rateOf note) := by
  rw [size, foldlM_eq_error]
  constructor
  · intro stopped
    rcases stopped with ⟨earlier, note, later, total, whole, counted, failed⟩
    rcases foldlM_addCount_eq_ok.1 counted with ⟨countable, rfl⟩
    rw [addCount_totalExtent] at failed
    split at failed
    · next exceeds =>
        cases failed
        exact ⟨earlier, note, later, whole, countable, exceeds, rfl⟩
    · cases failed
  · intro stopped
    rcases stopped with ⟨earlier, note, later, whole, countable, exceeds, rfl⟩
    refine ⟨earlier, note, later, _, whole, foldlM_addCount_eq_ok.2 ⟨countable, rfl⟩, ?_⟩
    rw [addCount_totalExtent, if_pos exceeds]

end Channel

/-! ## One piece of the second pass -/

theorem Instrument.check_eq_error {instrument : Instrument} {pitch : Pitch} {fault : Fault} :
    instrument.check pitch = .error fault ↔
      instrument.plays pitch = false ∧ fault = .unplayable pitch instrument := by
  rw [check]
  by_cases plays : instrument.plays pitch = true
  · simp [plays]
  · simp [plays, eq_comm (a := fault)]

theorem Sample.bufferSizeIn_eq_error {grants : Nat → Bool} {duration rate : Nat} {fault : Fault}
    (fits : duration * rate < Numeral.bound64)
    (failed : bufferSizeIn grants duration rate = .error fault) :
    grants (duration * rate / 1000) = false ∧ fault = .tooLong duration rate := by
  rw [bufferSizeIn, count, if_pos fits, ok_bind] at failed
  split at failed
  · cases failed
  · next refused =>
      cases failed
      exact ⟨Bool.eq_false_iff.2 refused, rfl⟩

namespace Channel

variable {channel : Channel} {memory : Memory} {request : Nat} {note : Note}
variable {notes : List Note} {samples : List Sample} {tape rest : RandomTape} {fault : Fault}

/-- Why a note is not played, although it is not too long to be counted: its instrument does
not play the pitch that sounds, or there is no buffer for it. -/
inductive Obstructs (channel : Channel) (memory : Memory) (request : Nat) (note : Note) :
    Fault → Prop
  | unplayable (sounds : note.isRest = false)
      (unfit : channel.settings.instrument.plays
        (note.pitch + channel.settings.transposition) = false) :
      Obstructs channel memory request note
        (.unplayable (note.pitch + channel.settings.transposition) channel.settings.instrument)
  | refused (unheld : memory.grants request (channel.extent note) = false) :
      Obstructs channel memory request note (.tooLong note.duration (channel.rateOf note))

theorem Obstructs.reported (obstructs : channel.Obstructs memory request note fault) :
    fault.breaks = false := by
  cases obstructs <;> rfl

/-- Whether the program breaks at a note, because thirty-two bits do not hold the pitch that
sounds. -/
structure Breaks (channel : Channel) (note : Note) (fault : Fault) : Prop where
  breaks : fault.breaks = true
  sounds : note.isRest = false
  overflow : ¬ channel.settings.SumFits note

theorem breaks_of_soundingPitch (sounds : note.isRest = false)
    (unsummed : channel.settings.soundingPitch note = .error fault) : channel.Breaks note fault := by
  by_cases fits : channel.settings.SumFits note
  · rw [Settings.soundingPitch_of_sumFits fits] at unsummed
    cases unsummed
  · rw [Settings.soundingPitch_of_not_sumFits fits] at unsummed
    cases unsummed
    exact ⟨rfl, sounds, fits⟩

/-- A note that can be counted is played, but for these reasons. -/
theorem obstructs_of_pieceIn (fits : note.duration * channel.rateOf note < Numeral.bound64)
    (failed : (channel.pieceIn (memory.grants request) note).run tape = (.error fault, rest)) :
    channel.Obstructs memory request note fault ∨ channel.Breaks note fault := by
  rw [pieceIn] at failed
  by_cases silent : note.isRest = true
  · have rate : channel.rateOf note = SampleRate.standard := if_pos silent
    rw [if_pos silent] at failed
    obtain ⟨silence, rfl⟩ := Synthesis.run_liftExcept_eq_error.1 failed
    obtain unsized | ⟨size, _, filled⟩ := bind_eq_error.1 silence
    · rw [← rate] at unsized
      obtain ⟨refused, rfl⟩ := Sample.bufferSizeIn_eq_error fits unsized
      exact .inl (.refused refused)
    · cases filled
  · have rate : channel.rateOf note = channel.settings.voice.rate := if_neg silent
    have sounds : note.isRest = false := Bool.eq_false_iff.2 silent
    rw [if_neg silent] at failed
    obtain unsummed | ⟨sounding, _, summed, voiced⟩ := Synthesis.run_bind_eq_error.1 failed
    · exact .inr (breaks_of_soundingPitch sounds (Synthesis.run_liftExcept_eq_error.1 unsummed).1)
    obtain ⟨transposed, rfl⟩ := Synthesis.run_liftExcept_eq_ok.1 summed
    obtain ⟨_, rfl⟩ := Settings.soundingPitch_eq_ok.1 transposed
    obtain unfit | ⟨_, _, _, sized⟩ := Synthesis.run_bind_eq_error.1 voiced
    · obtain ⟨unplayed, rfl⟩ :=
        Instrument.check_eq_error.1 (Synthesis.run_liftExcept_eq_error.1 unfit).1
      exact .inl (.unplayable sounds unplayed)
    obtain unsized | ⟨size, _, _, filled⟩ := Synthesis.run_bind_eq_error.1 sized
    · rw [← rate] at unsized
      obtain ⟨refused, rfl⟩ := Sample.bufferSizeIn_eq_error fits
        (Synthesis.run_liftExcept_eq_error.1 unsized).1
      exact .inl (.refused refused)
    · have never : Synthesis.FailsOnly (fun _ => False) (channel.settings.voice.fill
          (note.pitch + channel.settings.transposition) size) := Voice.failsOnly_fill _ _ size
      exact (never _ fault (congrArg Prod.fst filled)).elim

/-! ## The second pass -/

/-- After some notes the samples have grown by exactly what these notes count. -/
theorem length_collect {collected : List Sample}
    (played : (channel.collect memory request samples notes).run tape = (.ok collected, rest)) :
    collected.length = samples.length + channel.totalExtent notes := by
  induction notes generalizing request samples tape with
  | nil =>
      obtain ⟨rfl, rfl⟩ := Synthesis.run_pure_eq_ok.1 played
      rfl
  | cons note others ih =>
      obtain ⟨piece, between, first, later⟩ := Synthesis.run_bind_eq_ok.1 played
      rw [ih later, List.length_append, (length_pieceIn first).2, totalExtent_cons, Nat.add_assoc]

/-- A pass that stops has got through the notes before the one that stops it. -/
theorem exists_of_collect_eq_error
    (failed : (channel.collect memory request samples notes).run tape = (.error fault, rest)) :
    ∃ earlier note later collected between, notes = earlier ++ note :: later ∧
      (channel.collect memory request samples earlier).run tape = (.ok collected, between) ∧
      (channel.pieceIn (memory.grants (request + earlier.length)) note).run between =
        (.error fault, rest) := by
  induction notes generalizing request samples tape with
  | nil => cases failed
  | cons first others ih =>
      obtain stopped | ⟨piece, between, played, later⟩ := Synthesis.run_bind_eq_error.1 failed
      · exact ⟨[], first, others, samples, tape, rfl, rfl, stopped⟩
      · obtain ⟨earlier, note, after, collected, next, rfl, got, stopped⟩ := ih later
        refine ⟨first :: earlier, note, after, collected, next, rfl, ?_, ?_⟩
        · exact Synthesis.run_bind_eq_ok.2 ⟨piece, between, played, got⟩
        · rw [List.length_cons, Nat.add_comm earlier.length, ← Nat.add_assoc]
          exact stopped

/-- What the size of a channel promises for the samples that are collected, in any memory. -/
structure Promises (channel : Channel) (total : Nat) : Prop where
  /-- No note is too long when it is counted once more. -/
  counted : ∀ note ∈ channel.notes,
    (note.isRest = true →
      Sample.count note.duration SampleRate.standard = .ok (channel.extent note)) ∧
    (note.isRest = false →
      Sample.count note.duration channel.settings.rate = .ok (channel.extent note))
  /-- After any number of notes the samples have a place in the buffer. -/
  held : ∀ memory earlier later tape samples rest,
    channel.notes.toList = earlier ++ later →
    (channel.collect memory 1 [] earlier).run tape = (.ok samples, rest) →
      samples.length ≤ total
  /-- In the end the samples fill the buffer. -/
  filled : ∀ memory tape rendering rest,
    (channel.renderIn memory).run tape = (.ok rendering, rest) →
      rendering.samples.length = total
  /-- Without the buffer the whole channel is reported, and nothing is played. -/
  refused : ∀ memory tape, memory.grants 0 total = false →
    (channel.renderIn memory).run tape =
      (.error (.tooLong channel.duration channel.settings.rate), tape)
  /-- With the buffer, a note is reported that has no buffer of its own or that the instrument
  does not play, and nothing else; the notes before it have been played. -/
  reported : ∀ memory tape fault rest, memory.grants 0 total = true →
    (channel.renderIn memory).run tape = (.error fault, rest) → fault.breaks = false →
      ∃ earlier note later samples between, channel.notes.toList = earlier ++ note :: later ∧
        (channel.collect memory 1 [] earlier).run tape = (.ok samples, between) ∧
        channel.Obstructs memory (1 + earlier.length) note fault
  /-- The program breaks only at a note whose sounding pitch does not fit. -/
  broken : ∀ memory tape fault rest,
    (channel.renderIn memory).run tape = (.error fault, rest) → fault.breaks = true →
      ∃ note ∈ channel.notes, note.isRest = false ∧ ¬ channel.settings.SumFits note

/-- A note of a channel that has a size is not too long to be counted. -/
theorem Countable.lt_of_mem (countable : channel.Countable notes) (member : note ∈ notes) :
    note.duration * channel.rateOf note < Numeral.bound64 := by
  obtain ⟨earlier, later, whole⟩ := List.append_of_mem member
  exact Nat.not_le.1 fun long => countable earlier note later whole (.inl long)

/-- Of notes that can be counted, the first one that is not played is obstructed, or the
program breaks there. -/
theorem exists_stop {finish : List Sample → Rendering} (countable : channel.Countable notes)
    (failed : (do
      let samples ← channel.collect memory 1 [] notes
      return finish samples : Synthesis Rendering).run tape = (.error fault, rest)) :
    ∃ earlier note later samples between, notes = earlier ++ note :: later ∧
      (channel.collect memory 1 [] earlier).run tape = (.ok samples, between) ∧
      (channel.Obstructs memory (1 + earlier.length) note fault ∨ channel.Breaks note fault) := by
  obtain stopped | ⟨_, _, _, impossible⟩ := Synthesis.run_bind_eq_error.1 failed
  · obtain ⟨earlier, note, later, samples, between, rfl, played, stopped⟩ :=
      exists_of_collect_eq_error stopped
    have fits := countable.lt_of_mem (List.mem_append_right earlier List.mem_cons_self)
    exact ⟨earlier, note, later, samples, between, rfl, played, obstructs_of_pieceIn fits stopped⟩
  · cases impossible

/-- A channel that has a size is rendered if it gets a buffer of this size. -/
theorem renderIn_of_size {total : Nat} (sized : channel.size = .ok total) (memory : Memory) :
    channel.renderIn memory =
      if memory.grants 0 total then do
        let samples ← channel.collect memory 1 [] channel.notes.toList
        return ⟨channel.index, channel.settings.rate, samples, channel.duration⟩
      else throw (.tooLong channel.duration channel.settings.rate) := by
  have known (next : Nat → Synthesis Rendering) :
      ((liftM (Except.ok total : Except Fault Nat) : Synthesis Nat) >>= next) = next total :=
    rfl
  rw [renderIn, sized, known]
  cases granted : memory.grants 0 total with
  | true => rfl
  | false => rfl

theorem promises_of_size {total : Nat} (sized : channel.size = .ok total) :
    channel.Promises total := by
  obtain ⟨countable, rfl⟩ := size_eq_ok.1 sized
  constructor
  case counted =>
    intro note member
    have fits := countable.lt_of_mem (by simpa using member)
    rw [extent, rateOf] at *
    constructor
    · intro silent
      rw [if_pos silent] at *
      exact Sample.count_eq_ok.2 ⟨fits, rfl⟩
    · intro sounds
      rw [if_neg (Bool.eq_false_iff.1 sounds)] at *
      exact Sample.count_eq_ok.2 ⟨fits, rfl⟩
  case held =>
    intro memory earlier later tape samples rest whole played
    rw [length_collect played, whole, totalExtent_append, List.length_nil, Nat.zero_add]
    exact Nat.le_add_right _ _
  case filled =>
    intro memory tape rendering rest rendered
    rw [renderIn_of_size sized] at rendered
    split at rendered
    · obtain ⟨samples, _, played, final⟩ := Synthesis.run_bind_eq_ok.1 rendered
      obtain ⟨rfl, rfl⟩ := Synthesis.run_pure_eq_ok.1 final
      simpa using length_collect played
    · cases rendered
  case refused =>
    intro memory tape refused
    rw [renderIn_of_size sized, refused]
    rfl
  case reported =>
    intro memory tape fault rest granted failed reported
    rw [renderIn_of_size sized, if_pos granted] at failed
    obtain ⟨earlier, note, later, samples, between, whole, played, stopped | broken⟩ :=
      exists_stop countable failed
    · exact ⟨earlier, note, later, samples, between, whole, played, stopped⟩
    · rw [broken.breaks] at reported
      cases reported
  case broken =>
    intro memory tape fault rest failed breaks
    rw [renderIn_of_size sized] at failed
    split at failed
    · obtain ⟨earlier, note, later, _, _, whole, _, stopped | broken⟩ :=
        exists_stop countable failed
      · rw [stopped.reported] at breaks
        cases breaks
      · have member : note ∈ channel.notes.toList := by simp [whole]
        exact ⟨note, by simpa using member, broken.sounds, broken.overflow⟩
    · cases failed
      cases breaks

/-- Rendering a channel in a memory that is ample is rendering it.  If the channel has a
size, then in any memory its samples are as many as that, and are never more on the way; no
note is too long to be counted again, and rendering is given up for want of a buffer, or at a
note that the instrument does not play.  If it has none, then rendering it reports the first
note that is too long, alone or together with those before it, whatever the notes before it
are, in any memory and on any tape. -/
theorem render_capacity (channel : Channel) :
    channel.renderIn .ample = channel.render ∧
    (∀ total, channel.size = .ok total → channel.Promises total) ∧
    (∀ fault, channel.size = .error fault →
      (∃ earlier note later, channel.notes.toList = earlier ++ note :: later ∧
        channel.Countable earlier ∧ channel.Exceeds earlier note ∧
        fault = .tooLong note.duration
          (if note.isRest then SampleRate.standard else channel.settings.rate)) ∧
      ∀ memory tape, (channel.renderIn memory).run tape = (.error fault, tape)) := by
  refine ⟨rfl, fun total => promises_of_size, fun fault failed => ?_⟩
  refine ⟨size_eq_error.1 failed, fun memory tape => ?_⟩
  rw [renderIn, failed]
  rfl

/-- A channel that no document has: its instrument does not play the first note, and the last
one is too long. -/
def overlong : Channel :=
  ⟨2, ⟨Settings.volumeOfPercent 100, 0, 44100, .sinwave⟩,
    #[⟨Pitch.bass, 100, 1⟩, ⟨Pitch.rest, 1000, 1⟩, ⟨49, 9223372036854775807, 2⟩], 0⟩

theorem render_capacity_overlong :
    overlong.size = .error (.tooLong 9223372036854775807 44100) ∧
      (∀ memory tape, (overlong.renderIn memory).run tape =
        (.error (.tooLong 9223372036854775807 44100), tape)) ∧
      unchecked.size = .ok (800 + 1638 + 2000) ∧ unchecked.Promises (800 + 1638 + 2000) := by
  have overflows : overlong.size = .error (.tooLong 9223372036854775807 44100) := by
    decide +kernel
  have counts : unchecked.size = .ok (800 + 1638 + 2000) := by decide +kernel
  exact ⟨overflows, ((render_capacity overlong).2.2 _ overflows).2, counts,
    (render_capacity unchecked).2.1 _ counts⟩

end Channel

end ScoreSynth
