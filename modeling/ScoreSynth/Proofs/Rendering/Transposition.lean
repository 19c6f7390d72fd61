import ScoreSynth.Proofs.Rendering.Capacity

/-!
# Pitches written as they sound

A transposition can be written out: each note that is not a rest is given the pitch at which it
sounds, and nothing is transposed any more (`Channel.writtenOut`).  For the notes of a channel
this changes neither what is a rest nor what the instrument plays, because the pitch that sounds
is always one of the instrument's own (`Instrument.Owns`), which a rest is not.  So the channel is
rendered as before, into the same samples or to the same fault (`Channel.render_writtenOut`).
-/

namespace ScoreSynth

open Stepwise

/-! ## The note that is written out -/

namespace Settings

variable {settings : Settings} {note : Note}

/-- The same settings without a transposition. -/
def untransposed (settings : Settings) : Settings :=
  { settings with transposition := 0 }

/-- The note that is to be written where nothing is transposed.  A rest is left as it is. -/
def writtenOut (settings : Settings) (note : Note) : Note :=
  if note.isRest then note else { note with pitch := note.pitch + settings.transposition }

theorem writtenOut_of_isRest (silent : note.isRest = true) : settings.writtenOut note = note :=
  if_pos silent

theorem writtenOut_of_sounds (sounds : note.isRest = false) :
    settings.writtenOut note = { note with pitch := note.pitch + settings.transposition } :=
  if_neg (Bool.eq_false_iff.1 sounds)

@[simp] theorem duration_writtenOut (settings : Settings) (note : Note) :
    (settings.writtenOut note).duration = note.duration := by
  rw [writtenOut]
  split <;> rfl

/-- Where nothing is transposed, the pitches that an instrument has for its own are admitted. -/
theorem admits_untransposed (own : settings.instrument.Owns note.pitch) :
    settings.untransposed.Admits note := by
  refine .inr ⟨own.plays, ?_⟩
  rw [Instrument.Owns] at own
  split at own
  · next drum => exact .inl drum
  · have key : Pitch.isKey (note.pitch + 0) = true := by rwa [Int.add_zero]
    exact .inr key

/-- What stands for an admitted note where nothing is transposed. -/
structure Stands (settings : Settings) (note other : Note) : Prop where
  isRest_eq : other.isRest = note.isRest
  duration_eq : other.duration = note.duration
  admitted : settings.untransposed.Admits other
  sounding_eq : note.isRest = false →
    settings.untransposed.soundingPitch other = settings.soundingPitch note

theorem Admits.stands_writtenOut (admitted : settings.Admits note) (sound : settings.Sound) :
    settings.Stands note (settings.writtenOut note) := by
  cases silent : note.isRest with
  | true =>
      rw [writtenOut_of_isRest silent]
      constructor
      case isRest_eq => rfl
      case duration_eq => rfl
      case admitted => exact .inl (of_decide_eq_true silent)
      case sounding_eq =>
        intro sounds
        rw [silent] at sounds
        cases sounds
  | false =>
      have own := admitted.owns_sounding sound (of_decide_eq_false silent)
      rw [writtenOut_of_sounds silent]
      constructor
      case isRest_eq =>
        rw [silent]
        exact decide_eq_false own.ne_rest
      case duration_eq => rfl
      case admitted => exact admits_untransposed own
      case sounding_eq =>
        intro _
        have fits : settings.SumFits note := own.mem_bounds
        have same : note.pitch + settings.transposition + 0 =
          note.pitch + settings.transposition := Int.add_zero _
        rw [soundingPitch_of_sumFits fits, soundingPitch, untransposed]
        simp only [same]
        exact if_pos fits

end Settings

/-! ## The channel that is written out -/

namespace Channel

variable {channel : Channel} {note other : Note} {notes : List Note}

/-- The same channel with its transposition written into its notes. -/
def writtenOut (channel : Channel) : Channel :=
  { channel with
    settings := channel.settings.untransposed
    notes := channel.notes.map channel.settings.writtenOut }

theorem rateOf_writtenOut (stands : channel.settings.Stands note other) :
    channel.writtenOut.rateOf other = channel.rateOf note := by
  rw [rateOf, rateOf, stands.isRest_eq]
  rfl

theorem addCount_writtenOut (stands : channel.settings.Stands note other) (total : Nat) :
    channel.writtenOut.addCount total other = channel.addCount total note := by
  rw [addCount, addCount, rateOf_writtenOut stands, stands.duration_eq]

theorem pieceIn_writtenOut (stands : channel.settings.Stands note other) (grants : Nat → Bool) :
    channel.writtenOut.pieceIn grants other = channel.pieceIn grants note := by
  rw [pieceIn, pieceIn, stands.isRest_eq, stands.duration_eq]
  cases silent : note.isRest with
  | true => rfl
  | false =>
      have same : channel.writtenOut.settings.soundingPitch other =
          channel.settings.soundingPitch note := stands.sounding_eq silent
      rw [same]
      rfl

variable (stand : ∀ note ∈ notes, channel.settings.Stands note (channel.settings.writtenOut note))
include stand

theorem foldlM_addCount_writtenOut (total : Nat) :
    (notes.map channel.settings.writtenOut).foldlM channel.writtenOut.addCount total =
      notes.foldlM channel.addCount total := by
  induction notes generalizing total with
  | nil => rfl
  | cons note others ih =>
      obtain ⟨first, later⟩ := List.forall_mem_cons.1 stand
      simp only [List.map_cons, List.foldlM_cons, addCount_writtenOut first, ih later]

theorem collect_writtenOut (memory : Memory) (request : Nat) (samples : List Sample) :
    channel.writtenOut.collect memory request samples (notes.map channel.settings.writtenOut) =
      channel.collect memory request samples notes := by
  induction notes generalizing request samples with
  | nil => rfl
  | cons note others ih =>
      obtain ⟨first, later⟩ := List.forall_mem_cons.1 stand
      simp only [List.map_cons, collect, pieceIn_writtenOut first, ih later]

omit stand

/-- Notes that can be written out are rendered as before, in any memory. -/
theorem renderIn_writtenOut (stand : ∀ note ∈ channel.notes.toList,
      channel.settings.Stands note (channel.settings.writtenOut note)) (memory : Memory) :
    channel.writtenOut.renderIn memory = channel.renderIn memory := by
  have listed : channel.writtenOut.notes.toList =
      channel.notes.toList.map channel.settings.writtenOut := Array.toList_map
  have size_eq : channel.writtenOut.size = channel.size := by
    rw [size, listed, foldlM_addCount_writtenOut stand, size]
  rw [renderIn, renderIn, size_eq, listed]
  simp only [collect_writtenOut stand]
  rfl

theorem totalDuration_writtenOut (settings : Settings) (notes : List Note) :
    totalDuration (notes.map settings.writtenOut) = totalDuration notes := by
  induction notes with
  | nil => rfl
  | cons note others ih => simp [ih]

/-- Transposing is writing other pitches.  A channel is filled with notes under settings that were
read.  When its transposition is written out, every note of it still passes its check, and the
notes can be added one after the other to an empty channel that does not transpose.  The channel
is rendered as before, in whatever memory and on whatever tape. -/
theorem render_writtenOut {words : List (List Char)} {settings : Settings} {index : Nat}
    (read : Settings.ofWords words = .ok settings)
    (built : notes.foldlM push (empty index settings) = .ok channel) :
    (∀ note ∈ channel.writtenOut.notes, channel.writtenOut.settings.check note = .ok ()) ∧
    (notes.map settings.writtenOut).foldlM push (empty index settings.untransposed) =
      .ok channel.writtenOut ∧
    channel.writtenOut.render = channel.render ∧
    ∀ memory, channel.writtenOut.renderIn memory = channel.renderIn memory := by
  have vacant (settings : Settings) : (empty index settings).duration < Numeral.bound64 :=
    (by decide : 0 < Numeral.bound64)
  obtain ⟨admitted, total, rfl⟩ := (foldlM_push_eq_ok (vacant settings)).1 built
  have stand : ∀ note ∈ notes, settings.Stands note (settings.writtenOut note) :=
    fun note member => (admitted note member).stands_writtenOut (Settings.sound_of_ofWords read)
  have rendered (memory : Memory) :
      ((empty index settings).extend notes).writtenOut.renderIn memory =
        ((empty index settings).extend notes).renderIn memory := by
    apply renderIn_writtenOut
    simpa [extend, empty] using stand
  have checked : ∀ other ∈ notes.map settings.writtenOut, settings.untransposed.Admits other := by
    intro other member
    obtain ⟨note, written, rfl⟩ := List.mem_map.1 member
    exact (stand note written).admitted
  refine ⟨?_, ?_, ?_, rendered⟩
  · intro other member
    apply Settings.check_eq_ok_iff.2
    exact checked other (by simpa [writtenOut, extend, empty] using member)
  · refine (foldlM_push_eq_ok (vacant settings.untransposed)).2 ⟨checked, ?_, ?_⟩
    · rwa [totalDuration_writtenOut]
    · simp [writtenOut, extend, empty, totalDuration_writtenOut]
  · exact rendered .ample

/-- The settings of a reed that sounds an octave lower than it is written. -/
def lowReed : Settings :=
  ⟨Settings.volumeOfPercent 80, -12, 16384, .oboe⟩

/-- A key that sounds as the lowest one, a rest, and the tuning key. -/
def descent : List Note :=
  [⟨13, 100, 1⟩, ⟨Pitch.rest, 50, 1⟩, ⟨Pitch.tuningKey, 250, 2⟩]

theorem render_writtenOut_descent :
    Settings.ofWords
        ["volume=80".toList, "transpos=-12".toList, "16kHz".toList, "oboe".toList] =
      .ok lowReed ∧
    ∃ channel, descent.foldlM push (empty 3 lowReed) = .ok channel ∧
      channel.writtenOut.notes = #[⟨1, 100, 1⟩, ⟨Pitch.rest, 50, 1⟩, ⟨37, 250, 2⟩] ∧
      (∀ note ∈ channel.writtenOut.notes, channel.writtenOut.settings.check note = .ok ()) ∧
      channel.writtenOut.render = channel.render := by
  have read : Settings.ofWords
      ["volume=80".toList, "transpos=-12".toList, "16kHz".toList, "oboe".toList] =
        .ok lowReed := by
    decide +kernel
  have built : descent.foldlM push (empty 3 lowReed) =
      .ok ⟨3, lowReed, descent.toArray, 400⟩ := by
    decide +kernel
  obtain ⟨checked, _, rendered, _⟩ := render_writtenOut read built
  refine ⟨read, _, built, ?_, checked, rendered⟩
  decide +kernel

end Channel

end ScoreSynth
