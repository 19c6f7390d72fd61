import ScoreSynth.Proofs.Rendering.Steadiness

/-!
# The pieces of a rendering

A rendering is put together from one piece for each note, with nothing between them.  The
length of a piece is known before it is played, so every piece has its place in the whole.
Which notes can be played does not depend on the tape, and so a score can be rendered on all
tapes or on none (`Score.render_eq_concatenation`).
-/

namespace ScoreSynth

open Stepwise

/-! ## The length of a piece -/

namespace Sample

theorem count_eq_ok {duration rate size : Nat} :
    count duration rate = .ok size ↔
      duration * rate < Numeral.bound64 ∧ size = duration * rate / 1000 := by
  rw [count]
  by_cases fits : duration * rate < Numeral.bound64
  · simp [fits, eq_comm]
  · simp [fits]

theorem bufferSizeIn_eq_ok {grants : Nat → Bool} {duration rate size : Nat} :
    bufferSizeIn grants duration rate = .ok size ↔
      duration * rate < Numeral.bound64 ∧ size = duration * rate / 1000 ∧
        grants size = true := by
  simp only [bufferSizeIn, bind_eq_ok, count_eq_ok]
  constructor
  · intro found
    obtain ⟨counted, ⟨fits, rfl⟩, checked⟩ := found
    split at checked
    · next granted =>
        cases checked
        exact ⟨fits, rfl, granted⟩
    · cases checked
  · intro found
    obtain ⟨fits, rfl, granted⟩ := found
    exact ⟨_, ⟨fits, rfl⟩, if_pos granted⟩

/-- A rest that can be had is a row of zeros. -/
theorem silenceIn_eq_ok {grants : Nat → Bool} {duration : Nat} {samples : List Sample} :
    silenceIn grants duration = .ok samples ↔
      ∃ size, bufferSizeIn grants duration SampleRate.standard = .ok size ∧
        samples = List.replicate size 0 := by
  simp [silenceIn, bind_eq_ok, eq_comm (a := samples)]

end Sample

theorem RandomTape.length_mapM {α β : Type} (draw : α → StateM RandomTape β)
    (elements : List α) (tape : RandomTape) :
    ((elements.mapM draw).run tape).1.length = elements.length := by
  induction elements generalizing tape with
  | nil => rfl
  | cons element others ih =>
      rw [List.mapM_cons]
      exact congrArg (· + 1) (ih _)

/-- A drum is written over a buffer and leaves it as long as it was. -/
theorem Percussion.length_overwrite (pitch : Pitch) (volume : Float) (buffer : List Sample)
    (tape : RandomTape) :
    ((overwrite pitch volume buffer).run tape).1.length = buffer.length := by
  cases buffer with
  | nil => rfl
  | cons first others =>
      have written := RandomTape.length_mapM (sample pitch volume)
        (List.range' 1 others.length) tape
      rw [List.length_range'] at written
      exact congrArg (· + 1) written

/-- A voice plays as many samples as it is told to. -/
theorem Voice.length_fill {voice : Voice} {pitch : Pitch} {size : Nat} {samples : List Sample}
    {tape rest : RandomTape} (filled : (voice.fill pitch size).run tape = (.ok samples, rest)) :
    samples.length = size := by
  rw [fill] at filled
  split at filled
  · have written := Percussion.length_overwrite pitch voice.volume (List.replicate size 0) tape
    rw [List.length_replicate] at written
    cases filled
    exact written
  · cases filled
    simp

/-- The samples of a voice are as many as fit in the duration. -/
theorem Voice.length_soundIn {voice : Voice} {grants : Nat → Bool} {pitch : Pitch}
    {duration : Nat} {samples : List Sample} {tape rest : RandomTape}
    (played : (voice.soundIn grants pitch duration).run tape = (.ok samples, rest)) :
    duration * voice.rate < Numeral.bound64 ∧
      samples.length = duration * voice.rate / 1000 := by
  obtain ⟨checked, between, _, counted⟩ := Synthesis.run_bind_eq_ok.1 played
  obtain ⟨size, _, sized, filled⟩ := Synthesis.run_bind_eq_ok.1 counted
  obtain ⟨counted, rfl⟩ := Synthesis.run_liftExcept_eq_ok.1 sized
  obtain ⟨fits, exactly, _⟩ := Sample.bufferSizeIn_eq_ok.1 counted
  exact ⟨fits, exactly ▸ length_fill filled⟩

theorem Settings.soundingPitch_eq_ok {settings : Settings} {note : Note} {sounding : Pitch} :
    settings.soundingPitch note = .ok sounding ↔
      settings.SumFits note ∧ sounding = note.pitch + settings.transposition := by
  by_cases fits : settings.SumFits note
  · simp [soundingPitch_of_sumFits fits, fits, eq_comm]
  · simp [soundingPitch_of_not_sumFits fits, fits]

/-! ## The pieces of a channel -/

namespace Channel

/-- How many samples a note has: those that are complete within its duration. -/
def extent (channel : Channel) (note : Note) : Nat :=
  note.duration * channel.rateOf note / 1000

/-- How many samples some notes have together. -/
def totalExtent (channel : Channel) (notes : List Note) : Nat :=
  notes.foldr (fun note total => channel.extent note + total) 0

/-- Whether some samples are what a note sounds like on a tape.  A rest is silence at the
standard rate, whatever the settings.  Any other note is the sound of the channel's voice
at the transposed pitch. -/
inductive Sounds (channel : Channel) :
    Note → RandomTape → List Sample → RandomTape → Prop
  | rest {note : Note} (tape : RandomTape) :
      note.isRest = true →
      Sounds channel note tape
        (List.replicate (note.duration * SampleRate.standard / 1000) 0) tape
  | sound {note : Note} {tape rest : RandomTape} {samples : List Sample} :
      note.isRest = false →
      (Voice.sound ⟨channel.settings.instrument, channel.settings.volume, channel.settings.rate⟩
        (note.pitch + channel.settings.transposition) note.duration).run tape =
          (.ok samples, rest) →
      Sounds channel note tape samples rest

@[simp] theorem totalExtent_nil (channel : Channel) : channel.totalExtent [] = 0 := rfl

@[simp] theorem totalExtent_cons (channel : Channel) (note : Note) (notes : List Note) :
    channel.totalExtent (note :: notes) = channel.extent note + channel.totalExtent notes := rfl

/-- In any memory, a note that is played has as many samples as it should have. -/
theorem length_pieceIn {channel : Channel} {note : Note} {grants : Nat → Bool}
    {tape rest : RandomTape} {samples : List Sample}
    (played : (channel.pieceIn grants note).run tape = (.ok samples, rest)) :
    note.duration * channel.rateOf note < Numeral.bound64 ∧
      samples.length = channel.extent note := by
  rw [pieceIn] at played
  by_cases silent : note.isRest = true
  · rw [if_pos silent] at played
    obtain ⟨size, sized, rfl⟩ :=
      Sample.silenceIn_eq_ok.1 (Synthesis.run_liftExcept_eq_ok.1 played).1
    obtain ⟨fits, rfl, _⟩ := Sample.bufferSizeIn_eq_ok.1 sized
    rw [extent, rateOf, if_pos silent, List.length_replicate]
    exact ⟨fits, rfl⟩
  · rw [if_neg silent] at played
    obtain ⟨sounding, _, _, voiced⟩ := Synthesis.run_bind_eq_ok.1 played
    rw [extent, rateOf, if_neg silent]
    exact Voice.length_soundIn voiced

/-- The piece of a note, wherever it stands: an ample memory does not count the buffers that it
is asked for. -/
def piece (channel : Channel) (note : Note) : Synthesis (List Sample) :=
  channel.pieceIn (Memory.ample.grants 0) note

theorem piece_of_isRest {channel : Channel} {note : Note} (silent : note.isRest = true) :
    channel.piece note = liftM (Sample.silence note.duration) := by
  rw [piece, pieceIn, if_pos silent]
  rfl

theorem piece_of_not_isRest {channel : Channel} {note : Note} (sounding : ¬ note.isRest = true) :
    channel.piece note = (do
      let pitch ← channel.settings.soundingPitch note
      channel.settings.voice.sound pitch note.duration) := by
  rw [piece, pieceIn, if_neg sounding]
  rfl

/-- A note that is played sounds as it should. -/
theorem sounds_of_piece {channel : Channel} {note : Note} {tape rest : RandomTape}
    {samples : List Sample} (played : (channel.piece note).run tape = (.ok samples, rest)) :
    channel.Sounds note tape samples rest := by
  by_cases silent : note.isRest = true
  · rw [piece_of_isRest silent] at played
    obtain ⟨silence, rfl⟩ := Synthesis.run_liftExcept_eq_ok.1 played
    obtain ⟨size, sized, rfl⟩ := Sample.silenceIn_eq_ok.1 silence
    obtain ⟨_, rfl, _⟩ := Sample.bufferSizeIn_eq_ok.1 sized
    exact .rest tape silent
  · rw [piece_of_not_isRest silent] at played
    obtain ⟨sounding, _, summed, voiced⟩ := Synthesis.run_bind_eq_ok.1 played
    obtain ⟨transposed, rfl⟩ := Synthesis.run_liftExcept_eq_ok.1 summed
    obtain ⟨_, rfl⟩ := Settings.soundingPitch_eq_ok.1 transposed
    exact .sound (Bool.eq_false_iff.2 silent) voiced

/-- Whether a rendering is what a channel sounds like from one tape to another: the pieces of
its notes in their order, and nothing else.  The piece of a note begins where those of the
notes before it end, on the tape that they leave, and its length is exact. -/
structure IsRenderedAs (channel : Channel) (tape : RandomTape) (rendering : Rendering)
    (rest : RandomTape) : Prop where
  index_eq : rendering.index = channel.index
  rate_eq : rendering.rate = channel.settings.rate
  duration_eq : rendering.duration = channel.duration
  samples_eq : ∃ pieces,
    Synthesis.Performs channel.Sounds tape channel.notes.toList pieces rest ∧
      rendering.samples = pieces.flatten
  length_samples : rendering.samples.length = channel.totalExtent channel.notes.toList
  placed : ∀ earlier note later, channel.notes.toList = earlier ++ note :: later →
    ∃ front piece back before after,
      rendering.samples = front.flatten ++ piece ++ back.flatten ∧
      Synthesis.Performs channel.Sounds tape earlier front before ∧
      channel.Sounds note before piece after ∧
      Synthesis.Performs channel.Sounds after later back rest ∧
      front.flatten.length = channel.totalExtent earlier ∧
      piece.length = channel.extent note ∧
      note.duration * channel.rateOf note < Numeral.bound64

/-- The samples that are collected are the pieces of the notes. -/
theorem collect_ample (channel : Channel) (notes : List Note) (request : Nat)
    (samples : List Sample) :
    channel.collect .ample request samples notes = do
      let pieces ← notes.mapM channel.piece
      return samples ++ pieces.flatten := by
  induction notes generalizing request samples with
  | nil => simp [collect]
  | cons note others ih =>
      have first : channel.pieceIn (Memory.ample.grants request) note = channel.piece note := rfl
      simp only [collect, first, ih, List.mapM_cons, bind_assoc, pure_bind, List.flatten_cons,
        List.append_assoc]

/-- Behind the check of the size, a rendering is made of the pieces of the notes. -/
theorem exists_pieces_of_render {channel : Channel} {tape rest : RandomTape} {rendering : Rendering}
    (rendered : channel.render.run tape = (.ok rendering, rest)) :
    ∃ pieces, (channel.notes.toList.mapM channel.piece).run tape = (.ok pieces, rest) ∧
      rendering = ⟨channel.index, channel.settings.rate, pieces.flatten, channel.duration⟩ := by
  obtain ⟨size, _, counted, checked⟩ := Synthesis.run_bind_eq_ok.1 rendered
  obtain ⟨_, rfl⟩ := Synthesis.run_liftExcept_eq_ok.1 counted
  split at checked
  · cases checked
  · obtain ⟨samples, _, collected, final⟩ := Synthesis.run_bind_eq_ok.1 checked
    obtain ⟨rfl, rfl⟩ := Synthesis.run_pure_eq_ok.1 final
    rw [collect_ample] at collected
    obtain ⟨pieces, _, played, whole⟩ := Synthesis.run_bind_eq_ok.1 collected
    obtain ⟨rfl, rfl⟩ := Synthesis.run_pure_eq_ok.1 whole
    exact ⟨pieces, played, rfl⟩

/-- The pieces of notes that have been played are together as long as they should be. -/
theorem length_flatten_pieces {channel : Channel} {notes : List Note}
    {pieces : List (List Sample)} {tape rest : RandomTape}
    (played : Synthesis.Performs (Synthesis.Yields channel.piece) tape notes pieces rest) :
    pieces.flatten.length = channel.totalExtent notes := by
  induction played with
  | nil tape => rfl
  | cons first _ ih =>
      have length := (length_pieceIn first).2
      rw [List.flatten_cons, List.length_append, length, ih, totalExtent_cons]

theorem performs_sounds {channel : Channel} {notes : List Note} {pieces : List (List Sample)}
    {tape rest : RandomTape}
    (played : Synthesis.Performs (Synthesis.Yields channel.piece) tape notes pieces rest) :
    Synthesis.Performs channel.Sounds tape notes pieces rest :=
  played.imp fun _ _ _ _ sounded => sounds_of_piece sounded

/-- What a channel is rendered to are the pieces of its notes. -/
theorem isRenderedAs_of_render {channel : Channel} {tape rest : RandomTape}
    {rendering : Rendering} (rendered : channel.render.run tape = (.ok rendering, rest)) :
    channel.IsRenderedAs tape rendering rest := by
  obtain ⟨pieces, ran, rfl⟩ := exists_pieces_of_render rendered
  have played := Synthesis.run_mapM_eq_ok.1 ran
  constructor
  case index_eq => rfl
  case rate_eq => rfl
  case duration_eq => rfl
  case samples_eq => exact ⟨pieces, performs_sounds played, rfl⟩
  case length_samples => exact length_flatten_pieces played
  case placed =>
    intro earlier note later whole
    rw [whole] at played
    obtain ⟨front, piece, back, before, after, rfl, early, sounded, late⟩ := played.split
    obtain ⟨fits, length⟩ := length_pieceIn sounded
    refine ⟨front, piece, back, before, after, ?_, performs_sounds early, sounds_of_piece sounded,
      performs_sounds late, length_flatten_pieces early, length, fits⟩
    rw [List.flatten_append, List.flatten_cons, List.append_assoc]

/-! ## Success without regard to the tape -/

theorem steady_piece (channel : Channel) (note : Note) : (channel.piece note).Steady := by
  by_cases silent : note.isRest = true
  · rw [piece_of_isRest silent]
    exact Synthesis.steady_liftExcept _
  · rw [piece_of_not_isRest silent]
    apply Synthesis.steady_bind_liftExcept
    intro sounding _
    apply Synthesis.steady_bind_liftExcept
    intro checked _
    apply Synthesis.steady_bind_liftExcept
    intro size _
    rw [Voice.fill]
    split
    · exact .inl (Synthesis.succeeds_liftState _)
    · exact .inl (Synthesis.succeeds_pure _)

theorem steady_render (channel : Channel) : channel.render.Steady := by
  apply Synthesis.steady_bind_liftExcept
  intro size _
  split
  · exact .inr ⟨_, Synthesis.failsWith_throw _⟩
  · rw [collect_ample, bind_assoc]
    apply Synthesis.Steady.bind_succeeds
    · exact Synthesis.steady_mapM fun note _ => channel.steady_piece note
    · exact fun pieces => Synthesis.succeeds_pure _

end Channel

/-- Rendering is concatenation.  Whenever a channel can be rendered, its samples are the
pieces of its notes.  The channels of a score are rendered in their order, each on the tape
that the one before it left.  Whether a channel can be rendered does not depend on the tape;
a score can be rendered exactly when all its channels can, and fails with the fault of the
first one that cannot. -/
theorem Score.render_eq_concatenation (score : Score) :
    (∀ channel : Channel, channel.render.Steady ∧
      ∀ tape rendering rest, channel.render.run tape = (.ok rendering, rest) →
        channel.IsRenderedAs tape rendering rest) ∧
    (∀ tape renderings rest, score.render.run tape = (.ok renderings, rest) →
      Synthesis.Performs (Synthesis.Yields Channel.render) tape score.channels renderings rest) ∧
    (∀ tape, (∃ renderings, (score.render.run tape).1 = .ok renderings) ↔
      ∀ channel ∈ score.channels, channel.render.Succeeds) ∧
    (∀ tape fault, (score.render.run tape).1 = .error fault ↔
      ∃ earlier channel later, score.channels = earlier ++ channel :: later ∧
        (∀ other ∈ earlier, other.render.Succeeds) ∧ channel.render.FailsWith fault) := by
  have steady : ∀ channel ∈ score.channels, channel.render.Steady :=
    fun channel _ => channel.steady_render
  refine ⟨?_, ?_, ?_, ?_⟩
  · intro channel
    exact ⟨channel.steady_render, fun _ _ _ => Channel.isRenderedAs_of_render⟩
  · intro tape renderings rest
    exact Synthesis.run_mapM_eq_ok.1
  · exact Synthesis.mapM_succeeds_iff steady
  · exact Synthesis.mapM_fails_iff steady

/-- A channel that no document has: its first note is too high, and its duration is not that
of its notes. -/
def Channel.unchecked : Channel :=
  ⟨7, ⟨Settings.volumeOfPercent 80, -12, 8000, .flute⟩,
    #[⟨500, 100, 1⟩, ⟨Pitch.rest, 100, 1⟩, ⟨49, 250, 2⟩], 5⟩

theorem Score.render_eq_concatenation_unchecked :
    ∃ rendering rest,
      Channel.unchecked.render.run (.fresh fun _ => 0) = (.ok rendering, rest) ∧
      Channel.unchecked.IsRenderedAs (.fresh fun _ => 0) rendering rest ∧
      rendering.samples.length = 800 + 1638 + 2000 ∧ rendering.duration = 5 := by
  have playable :
      (Channel.unchecked.render.run (.fresh fun _ => 0)).1.toOption.isSome = true := by
    decide +kernel
  have extent : Channel.unchecked.totalExtent Channel.unchecked.notes.toList =
      800 + 1638 + 2000 := by
    decide
  cases result : Channel.unchecked.render.run (.fresh fun _ => 0) with
  | mk outcome rest =>
      rw [result] at playable
      cases outcome with
      | error fault => cases playable
      | ok rendering =>
          have rendered :=
            ((render_eq_concatenation ⟨⟨100⟩, [Channel.unchecked]⟩).1 _).2 _ _ _ result
          exact ⟨rendering, rest, rfl, rendered, rendered.length_samples.trans extent,
            rendered.duration_eq⟩

end ScoreSynth
