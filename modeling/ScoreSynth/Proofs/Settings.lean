import ScoreSynth.Proofs.Note
import ScoreSynth.Proofs.Stepwise
import ScoreSynth.Settings

/-!
# Settings and the notes they admit

Settings that are read keep what rendering relies on: a rate that is not zero, a
transposition of thirty-two bits, and none for the drum kit.  A note is admitted
(`Settings.Admits`) exactly when its check succeeds; a check that fails says which of
three conditions is broken, the first of them if there are several.
-/

namespace ScoreSynth.Settings

open Stepwise

/-! ## Reading words -/

/-- The label of a word is taken away. -/
theorem withoutLabel_append {label : List Char} (known : label ∈ labels) (text : List Char) :
    withoutLabel (label ++ text) = text := by
  simp only [labels, List.mem_cons, List.not_mem_nil, or_false] at known
  rcases known with rfl | rfl | rfl | rfl <;> rfl

theorem require_eq_ok {α : Type} {field : Field} {read : List Char → Option α}
    {text : List Char} {value : α} :
    require field read text = .ok value ↔ read text = some value := by
  unfold require
  split
  · next result found => simp [found]
  · next missing => simp [missing]

/-- Words are read as settings exactly when each of the four fields can be read and
the drum kit is not transposed. -/
theorem ofWords_eq_ok {words : List (List Char)} {settings : Settings} :
    ofWords words = .ok settings ↔
      ∃ percent, Numeral.signed32? (textOf words .volume) = some percent ∧
        settings.volume = volumeOfPercent percent ∧
        Numeral.signed32? (textOf words .transposition) = some settings.transposition ∧
        SampleRate.ofText? (textOf words .sampleRate) = some settings.rate ∧
        Instrument.ofName? (textOf words .instrument) = some settings.instrument ∧
        (settings.instrument.isDrum = true → settings.transposition = 0) := by
  obtain ⟨volume, transposition, rate, instrument⟩ := settings
  unfold ofWords
  simp only [bind_eq_ok, require_eq_ok]
  constructor
  · intro reads
    rcases reads with ⟨percent, readPercent, transposition, readTransposition, rate,
      readRate, instrument, readInstrument, rest⟩
    by_cases transposedDrum : instrument.isDrum = true ∧ transposition ≠ 0
    · simp [transposedDrum] at rest
    · rw [if_neg transposedDrum] at rest
      cases rest
      refine ⟨percent, readPercent, rfl, readTransposition, readRate, readInstrument, ?_⟩
      intro drum
      exact Decidable.byContradiction fun transposed => transposedDrum ⟨drum, transposed⟩
  · intro reads
    rcases reads with ⟨percent, readPercent, rfl, readTransposition, readRate,
      readInstrument, untransposed⟩
    refine ⟨percent, readPercent, transposition, readTransposition, rate, readRate,
      instrument, readInstrument, ?_⟩
    have noTransposedDrum : ¬ (instrument.isDrum = true ∧ transposition ≠ 0) :=
      fun ⟨drum, transposed⟩ => transposed (untransposed drum)
    rw [if_neg noTransposedDrum]
    rfl

/-- What rendering relies on of settings that were read. -/
structure Sound (settings : Settings) : Prop where
  rate_pos : 0 < settings.rate
  transposition_mem : Numeral.lowest32 ≤ settings.transposition ∧
    settings.transposition ≤ Numeral.highest32
  drum_transposition : settings.instrument.isDrum = true → settings.transposition = 0

/-- A rate that is read is not zero. -/
theorem rate_pos_of_ofText? {text : List Char} {rate : Nat}
    (read : SampleRate.ofText? text = some rate) : 0 < rate := by
  have kept := (Option.filter_eq_some_iff.1 read).2
  simpa using kept

theorem sound_of_ofWords {words : List (List Char)} {settings : Settings}
    (read : ofWords words = .ok settings) : settings.Sound := by
  obtain ⟨_, _, _, readTransposition, readRate, _, untransposed⟩ := ofWords_eq_ok.1 read
  exact ⟨rate_pos_of_ofText? readRate, Numeral.mem_of_integer? readTransposition, untransposed⟩

/-! ## Checking notes -/

/-- Whether thirty-two bits hold the sum of a note's pitch and the transposition. -/
def SumFits (settings : Settings) (note : Note) : Prop :=
  Numeral.lowest32 ≤ note.pitch + settings.transposition ∧
    note.pitch + settings.transposition ≤ Numeral.highest32

instance (settings : Settings) (note : Note) : Decidable (settings.SumFits note) :=
  inferInstanceAs (Decidable (_ ∧ _))

/-- Whether a note can be played: it is a rest, or the instrument plays its pitch as
written and, unless that is a percussion sound, the pitch that sounds is a key. -/
def Admits (settings : Settings) (note : Note) : Prop :=
  note.pitch = Pitch.rest ∨
    settings.instrument.plays note.pitch = true ∧
      (settings.instrument.isDrum = true ∨
        Pitch.isKey (note.pitch + settings.transposition) = true)

instance (settings : Settings) (note : Note) : Decidable (settings.Admits note) :=
  inferInstanceAs (Decidable (_ ∨ _ ∧ _))

/-- What can be heard is small. -/
theorem mem_bounds_of_sounds {sounding : Int}
    (sounds : Pitch.isKey sounding = true ∨ Pitch.isPercussion sounding = true) :
    Numeral.lowest32 ≤ sounding ∧ sounding ≤ Numeral.highest32 := by
  rw [Pitch.isKey_iff, Pitch.isPercussion_iff] at sounds
  unfold Numeral.lowest32 Numeral.highest32
  omega

theorem sumFits_of_isKey {settings : Settings} {note : Note}
    (key : Pitch.isKey (note.pitch + settings.transposition) = true) :
    settings.SumFits note :=
  mem_bounds_of_sounds (.inl key)

theorem soundingPitch_of_sumFits {settings : Settings} {note : Note}
    (fits : settings.SumFits note) :
    settings.soundingPitch note = .ok (note.pitch + settings.transposition) :=
  if_pos fits

theorem soundingPitch_of_not_sumFits {settings : Settings} {note : Note}
    (overflow : ¬ settings.SumFits note) :
    settings.soundingPitch note =
      .error (.sumOverflow note.pitch settings.transposition) :=
  if_neg overflow

theorem check_eq (settings : Settings) (note : Note) :
    settings.check note =
      if note.pitch = Pitch.rest then .ok ()
      else if settings.instrument.plays note.pitch = false then
        .error (.unplayable note.pitch settings.instrument)
      else if settings.instrument.isDrum = true then .ok ()
      else if ¬ settings.SumFits note then
        .error (.sumOverflow note.pitch settings.transposition)
      else if Pitch.isKey (note.pitch + settings.transposition) = true then .ok ()
      else .error (.outOfRange note.pitch settings.transposition) := by
  unfold check Instrument.check
  by_cases rest : note.pitch = Pitch.rest
  · simp [Note.isRest, rest]
  by_cases plays : settings.instrument.plays note.pitch = true
  · by_cases drum : settings.instrument.isDrum = true
    · simp [Note.isRest, rest, plays, drum]
    · by_cases fits : settings.SumFits note
      · by_cases key : Pitch.isKey (note.pitch + settings.transposition) = true <;>
          simp [Note.isRest, rest, plays, drum, fits, key, soundingPitch_of_sumFits]
      · simp [Note.isRest, rest, plays, drum, fits, soundingPitch_of_not_sumFits]
  · simp [Note.isRest, rest, plays]

/-- The check succeeds exactly for the notes that can be played. -/
theorem check_eq_ok_iff {settings : Settings} {note : Note} {done : Unit} :
    settings.check note = .ok done ↔ settings.Admits note := by
  rw [check_eq]
  unfold Admits
  by_cases rest : note.pitch = Pitch.rest
  · simp [rest]
  by_cases plays : settings.instrument.plays note.pitch = true
  · by_cases drum : settings.instrument.isDrum = true
    · simp [plays, drum]
    · by_cases key : Pitch.isKey (note.pitch + settings.transposition) = true
      · simp [plays, key, sumFits_of_isKey key]
      · by_cases fits : settings.SumFits note <;> simp [rest, plays, drum, key, fits]
  · simp [rest, plays]

/-- The three faults that a check can find, each with the condition that it is found
on. -/
theorem check_eq_error_iff {settings : Settings} {note : Note} {fault : Fault} :
    settings.check note = .error fault ↔
      note.pitch ≠ Pitch.rest ∧
        (settings.instrument.plays note.pitch = false ∧
            fault = .unplayable note.pitch settings.instrument ∨
          settings.instrument.plays note.pitch = true ∧
            settings.instrument.isDrum = false ∧
            (¬ settings.SumFits note ∧
                fault = .sumOverflow note.pitch settings.transposition ∨
              settings.SumFits note ∧
                Pitch.isKey (note.pitch + settings.transposition) = false ∧
                fault = .outOfRange note.pitch settings.transposition)) := by
  rw [check_eq]
  by_cases rest : note.pitch = Pitch.rest
  · simp [rest]
  by_cases plays : settings.instrument.plays note.pitch = true
  · by_cases drum : settings.instrument.isDrum = true
    · simp [rest, plays, drum]
    · by_cases key : Pitch.isKey (note.pitch + settings.transposition) = true
      · simp [rest, plays, drum, key, sumFits_of_isKey key]
      · by_cases fits : settings.SumFits note <;>
          simp [rest, plays, drum, key, fits, eq_comm (a := fault)]
  · simp [rest, plays, eq_comm (a := fault)]

end ScoreSynth.Settings
