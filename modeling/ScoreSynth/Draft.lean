import ScoreSynth.Score

/-!
# Drafts

A draft is a score as it is composed: durations are those before the tempo is
applied, volumes are in percent, and loops are not unrolled.  A draft can be
written as a document (`Draft.write`), and it stands for a score (`Draft.score`).
What a draft must fulfil so that its document can be read is `Draft.Playable`.
-/

namespace ScoreSynth

/-- A note before the tempo is applied. -/
structure DraftNote where
  pitch : Pitch
  /-- The duration in milliseconds at full tempo. -/
  duration : Nat
  deriving DecidableEq, Repr

/-- A note, or some notes that are played several times. -/
inductive DraftItem where
  | note (single : DraftNote)
  | loop (count : Nat) (notes : List DraftNote)
  deriving DecidableEq, Repr

/-- A voice of a draft. -/
structure DraftChannel where
  /-- The volume in percent. -/
  percent : Int
  transposition : Int
  rate : Nat
  instrument : Instrument
  items : List DraftItem
  deriving DecidableEq, Repr

/-- A score as it is composed. -/
structure Draft where
  tempo : Tempo
  channels : List DraftChannel
  deriving DecidableEq, Repr

namespace DraftNote

/-- The word for a note. -/
def word (note : DraftNote) : List Char :=
  note.pitch.name?.getD [] ++ ',' :: Numeral.ofNat note.duration

/-- The note that is played, given the line it is written on. -/
def played (multiplier : Float) (line : Nat) (note : DraftNote) : Note :=
  ⟨note.pitch, Note.scaled multiplier note.duration, line⟩

/-- Whether a note can be written, and played by an instrument at a transposition.
A rest always can.  The drum kit plays the percussion sounds; the others play the
keys that are keys after transposition too. -/
def Playable (instrument : Instrument) (transposition : Int) (note : DraftNote) : Prop :=
  note.duration < Numeral.bound32 ∧
    (note.pitch = Pitch.rest ∨
      if instrument.isDrum then note.pitch.isPercussion = true
      else note.pitch.isKey = true ∧ Pitch.isKey (note.pitch + transposition) = true)

instance (instrument : Instrument) (transposition : Int) (note : DraftNote) :
    Decidable (note.Playable instrument transposition) :=
  inferInstanceAs (Decidable (_ ∧ (_ ∨ _)))

end DraftNote

namespace DraftItem

/-- The notes of an item, as written once. -/
def notes : DraftItem → List DraftNote
  | note single => [single]
  | loop _ notes => notes

/-- The words for an item. -/
def words : DraftItem → List (List Char)
  | note single => [single.word]
  | loop count notes =>
      Keyword.loop.text :: Numeral.ofNat count :: notes.map DraftNote.word ++
        [Keyword.endloop.text]

/-- The notes that an item stands for. -/
def unrolled : DraftItem → List DraftNote
  | note single => [single]
  | loop count notes => Score.copies count notes

/-- Whether the count of a loop can be written.  Other items have none. -/
def Countable : DraftItem → Prop
  | note _ => True
  | loop count _ => 2 ≤ count ∧ count < Numeral.bound64

instance : DecidablePred Countable
  | note _ => .isTrue trivial
  | loop _ _ => inferInstanceAs (Decidable (_ ∧ _))

end DraftItem

namespace DraftChannel

/-- The settings that a channel stands for. -/
def settings (channel : DraftChannel) : Settings :=
  ⟨Settings.volumeOfPercent channel.percent, channel.transposition, channel.rate,
    channel.instrument⟩

/-- The words for the settings of a channel, with their labels. -/
def settingsWords (channel : DraftChannel) : List (List Char) :=
  ["volume=".toList ++ Numeral.ofInt channel.percent,
   "transpos=".toList ++ Numeral.ofInt channel.transposition,
   "samplerate=".toList ++ Numeral.ofNat channel.rate ++ "Hz".toList,
   "instrument=".toList ++ channel.instrument.name.toList]

/-- The three lines for a channel: its settings, its notes and its end. -/
def lines (channel : DraftChannel) : List (List Char) :=
  [Text.joinWords (Keyword.channel.text :: Keyword.config.text ::
     channel.settingsWords ++ [Keyword.endconfig.text]),
   Text.joinWords (channel.items.flatMap DraftItem.words),
   Keyword.endchannel.text]

/-- The notes of a channel as they are played, given the line they are written
on. -/
def played (multiplier : Float) (line : Nat) (channel : DraftChannel) : List Note :=
  (channel.items.flatMap DraftItem.unrolled).map (·.played multiplier line)

/-- The duration of a channel in milliseconds. -/
def duration (multiplier : Float) (channel : DraftChannel) : Nat :=
  (channel.items.flatMap DraftItem.unrolled).foldl
    (fun total note => total + Note.scaled multiplier note.duration) 0

/-- Whether every part of a channel can be written and played, and the channel is
not too long. -/
structure Playable (multiplier : Float) (channel : DraftChannel) : Prop where
  percent_mem : Numeral.lowest32 ≤ channel.percent ∧ channel.percent ≤ Numeral.highest32
  transposition_mem : Numeral.lowest32 ≤ channel.transposition ∧
    channel.transposition ≤ Numeral.highest32
  drum_transposition : channel.instrument.isDrum = true → channel.transposition = 0
  rate_mem : 0 < channel.rate ∧ channel.rate < Numeral.bound32
  countable : ∀ item ∈ channel.items, item.Countable
  notes_playable : ∀ item ∈ channel.items, ∀ note ∈ item.notes,
    note.Playable channel.instrument channel.transposition
  duration_lt : channel.duration multiplier < Numeral.bound64

instance (multiplier : Float) (channel : DraftChannel) :
    Decidable (channel.Playable multiplier) :=
  decidable_of_iff
    ((Numeral.lowest32 ≤ channel.percent ∧ channel.percent ≤ Numeral.highest32) ∧
      (Numeral.lowest32 ≤ channel.transposition ∧
        channel.transposition ≤ Numeral.highest32) ∧
      (channel.instrument.isDrum = true → channel.transposition = 0) ∧
      (0 < channel.rate ∧ channel.rate < Numeral.bound32) ∧
      (∀ item ∈ channel.items, item.Countable) ∧
      (∀ item ∈ channel.items, ∀ note ∈ item.notes,
        note.Playable channel.instrument channel.transposition) ∧
      channel.duration multiplier < Numeral.bound64)
    ⟨fun ⟨percent, transposition, drum, rate, countable, notes, duration⟩ =>
        ⟨percent, transposition, drum, rate, countable, notes, duration⟩,
      fun ⟨percent, transposition, drum, rate, countable, notes, duration⟩ =>
        ⟨percent, transposition, drum, rate, countable, notes, duration⟩⟩

end DraftChannel

namespace Draft

/-- The words for the global settings. -/
def globalWords (draft : Draft) : List (List Char) :=
  [Keyword.globalconfig.text, Keyword.tempo.text,
   Numeral.ofNat draft.tempo.percent ++ ['%'], Keyword.endglobalconfig.text]

/-- The document of a draft. -/
def write (draft : Draft) : List Char :=
  Text.joinLines (Document.header :: Text.joinWords draft.globalWords ::
    draft.channels.flatMap DraftChannel.lines)

/-- The line that holds the notes of the channel at a position.  Two lines come
before the channels, and three belong to each. -/
def noteLine (index : Nat) : Nat :=
  3 * index + 4

/-- The channel that a channel of the draft stands for. -/
def channel (multiplier : Float) (index : Nat) (channel : DraftChannel) : Channel :=
  ⟨index, channel.settings, (channel.played multiplier (noteLine index)).toArray,
    channel.duration multiplier⟩

/-- The score that a draft stands for. -/
def score (draft : Draft) : Score :=
  ⟨draft.tempo, draft.channels.mapIdx (channel draft.tempo.multiplier)⟩

/-- Whether a draft can be written and played: its tempo is a positive number that
can be read, it has a channel, and every channel can be played. -/
structure Playable (draft : Draft) : Prop where
  tempo_mem : 0 < draft.tempo.percent ∧ draft.tempo.percent < Numeral.bound32
  channels_ne_nil : draft.channels ≠ []
  channels_playable : ∀ channel ∈ draft.channels,
    channel.Playable draft.tempo.multiplier

instance (draft : Draft) : Decidable draft.Playable :=
  decidable_of_iff
    ((0 < draft.tempo.percent ∧ draft.tempo.percent < Numeral.bound32) ∧
      draft.channels ≠ [] ∧
      ∀ channel ∈ draft.channels, channel.Playable draft.tempo.multiplier)
    ⟨fun ⟨tempo, nonempty, channels⟩ => ⟨tempo, nonempty, channels⟩,
      fun ⟨tempo, nonempty, channels⟩ => ⟨tempo, nonempty, channels⟩⟩

end Draft

end ScoreSynth
