import ScoreSynth.Proofs.Score.Reading

/-!
# Scores that have been read are valid

A score that comes from a document fulfils everything that rendering relies on
(`Score.Valid`): there is a channel, channels are numbered by their positions, tempo
and rates are positive, every note can be played by the instrument of its channel both
as written and as transposed, and the duration of a channel is the sum of the durations
of its notes, which fits in sixty-four bits.
-/

namespace ScoreSynth

/-! ## The pitches of an instrument -/

namespace Instrument

/-- Whether a pitch is one of an instrument's own: a percussion sound for the drum kit, and a key
for any other instrument. -/
def Owns (instrument : Instrument) (pitch : Pitch) : Prop :=
  if instrument.isDrum then pitch.isPercussion = true else pitch.isKey = true

variable {instrument : Instrument} {pitch : Pitch}

theorem owns_of_plays (drum : instrument.isDrum = true) (plays : instrument.plays pitch = true) :
    instrument.Owns pitch := by
  rw [Owns, if_pos drum]
  simpa [Instrument.plays, drum] using plays

theorem Owns.plays (own : instrument.Owns pitch) : instrument.plays pitch = true := by
  rw [Owns] at own
  split at own
  · next drum => simp [Instrument.plays, drum, own]
  · next melodic => simp [Instrument.plays, melodic, Pitch.isPercussion_eq_false_of_isKey own]

/-- No instrument has the rest for its own. -/
theorem Owns.ne_rest (own : instrument.Owns pitch) : pitch ≠ Pitch.rest := by
  rintro rfl
  rw [Owns] at own
  split at own <;> cases own

theorem Owns.mem_bounds (own : instrument.Owns pitch) :
    Numeral.lowest32 ≤ pitch ∧ pitch ≤ Numeral.highest32 := by
  rw [Owns] at own
  split at own
  · exact Settings.mem_bounds_of_sounds (.inr own)
  · exact Settings.mem_bounds_of_sounds (.inl own)

end Instrument

/-! ## What can be relied on -/

/-- Whether a note is a rest, or its pitch is one of the instrument's own both as
written and as transposed. -/
def Settings.Plays (settings : Settings) (note : Note) : Prop :=
  note.pitch = Pitch.rest ∨
    if settings.instrument.isDrum then
      note.pitch.isPercussion = true ∧
        Pitch.isPercussion (note.pitch + settings.transposition) = true
    else
      note.pitch.isKey = true ∧ Pitch.isKey (note.pitch + settings.transposition) = true

/-- Whether a channel at a position can be relied on. -/
structure Channel.Valid (channel : Channel) (position : Nat) : Prop where
  index_eq : channel.index = position
  rate_pos : 0 < channel.settings.rate
  drum_transposition : channel.settings.instrument.isDrum = true →
    channel.settings.transposition = 0
  plays : ∀ note ∈ channel.notes, channel.settings.Plays note
  duration_eq : channel.duration = Channel.totalDuration channel.notes.toList
  duration_lt : channel.duration < Numeral.bound64

/-- Whether a score can be relied on. -/
structure Score.Valid (score : Score) : Prop where
  channels_ne_nil : score.channels ≠ []
  percent_pos : 0 < score.tempo.percent
  channels_valid : ∀ (position : Nat) (channel : Channel),
    score.channels[position]? = some channel → channel.Valid position

namespace Settings

variable {settings : Settings} {note : Note}

theorem plays_iff : settings.Plays note ↔
    note.pitch = Pitch.rest ∨
      settings.instrument.Owns note.pitch ∧
        settings.instrument.Owns (note.pitch + settings.transposition) := by
  by_cases drum : settings.instrument.isDrum = true
  · simp [Plays, Instrument.Owns, drum]
  · simp [Plays, Instrument.Owns, drum]

/-- An admitted note sounds at a pitch that the instrument has for its own. -/
theorem Admits.owns_sounding (admitted : settings.Admits note) (sound : settings.Sound)
    (sounds : note.pitch ≠ Pitch.rest) :
    settings.instrument.Owns (note.pitch + settings.transposition) := by
  obtain ⟨plays, transposed⟩ := admitted.resolve_left sounds
  by_cases drum : settings.instrument.isDrum = true
  -- A check looks at a drum as it is written, which is how it sounds, and at a key transposed.
  · rw [sound.drum_transposition drum, Int.add_zero]
    exact Instrument.owns_of_plays drum plays
  · rw [Instrument.Owns, if_neg drum]
    exact transposed.resolve_left drum

/-- A note that was read and admitted has a pitch of its instrument's own, as written
and as transposed. -/
theorem plays_of_admits (sound : settings.Sound)
    (named : note.pitch = Pitch.rest ∨ note.pitch.isKey = true ∨
      note.pitch.isPercussion = true)
    (admitted : settings.Admits note) : settings.Plays note := by
  by_cases rest : note.pitch = Pitch.rest
  · exact .inl rest
  refine plays_iff.2 (.inr ⟨?_, admitted.owns_sounding sound rest⟩)
  have plays := (admitted.resolve_left rest).1
  by_cases drum : settings.instrument.isDrum = true
  · exact Instrument.owns_of_plays drum plays
  · have noPercussion : note.pitch.isPercussion = false := by
      simpa [Instrument.plays, drum] using plays
    rw [Instrument.Owns, if_neg drum]
    exact (named.resolve_left rest).resolve_right (Bool.eq_false_iff.1 noPercussion)

end Settings

namespace Score

open Stepwise

theorem valid_of_buildChannel {multiplier : Float} {position : Nat} {block : Block}
    {channel : Channel} (built : buildChannel multiplier position block = .ok channel) :
    channel.Valid position := by
  rcases buildChannel_eq_ok.1 built with
    ⟨settings, notes, read, readNotes, admitted, fits, rfl⟩
  have sound := Settings.sound_of_ofWords read
  constructor
  case index_eq => rfl
  case rate_pos => exact sound.rate_pos
  case drum_transposition => exact sound.drum_transposition
  case duration_eq => rfl
  case duration_lt => exact fits
  case plays =>
    intro note member
    have member : note ∈ notes := by simpa using member
    -- The note comes from a token, and a token names only pitches of the table.
    rcases exists_mem_of_mapM_eq_ok readNotes member with ⟨token, _, readNote⟩
    exact Settings.plays_of_admits sound
      (Note.rest_or_key_or_percussion_of_ofToken readNote) (admitted note member)

/-- The channels that are built, one for each block, have consecutive positions. -/
theorem valid_of_buildChannels {multiplier : Float} {blocks : List Block} {start : Nat}
    {channels : List Channel} (built : buildChannels multiplier blocks start = .ok channels)
    {position : Nat} {channel : Channel} (found : channels[position]? = some channel) :
    channel.Valid (start + position) := by
  induction blocks generalizing start channels position with
  | nil =>
      cases built
      simp at found
  | cons block others ih =>
      rw [buildChannels_cons] at built
      rcases bind_eq_ok.1 built with ⟨head, builtHead, builtOthers⟩
      rcases bind_eq_ok.1 builtOthers with ⟨following, builtFollowing, final⟩
      cases final
      cases position with
      | zero =>
          cases found
          exact valid_of_buildChannel builtHead
      | succ position =>
          have valid := ih builtFollowing found
          rwa [Nat.add_assoc, Nat.add_comm 1] at valid

theorem length_of_buildChannels {multiplier : Float} {blocks : List Block} {start : Nat}
    {channels : List Channel} (built : buildChannels multiplier blocks start = .ok channels) :
    channels.length = blocks.length := by
  have same := (buildChannels_eq_ok.1 built).length_eq
  rw [List.length_zipIdx] at same
  exact same.symm

/-- A score that comes from a document is valid. -/
theorem valid_of_parse {source : List Char} {score : Score}
    (read : parse source = .ok score) : score.Valid := by
  rcases parse_eq_ok.1 read with ⟨tokens, body, _, taken, compiled⟩
  rcases compile_eq_ok.1 compiled with ⟨expanded, blocks, _, split, built⟩
  constructor
  case channels_ne_nil =>
    have some := List.length_pos_of_ne_nil (ne_nil_of_splitBlocks split)
    rw [← length_of_buildChannels built] at some
    exact List.ne_nil_of_length_pos some
  case percent_pos => exact (percent_mem_of_takeGlobals taken).1
  case channels_valid =>
    intro position channel found
    have valid := valid_of_buildChannels built found
    rwa [Nat.zero_add] at valid

end Score

end ScoreSynth
