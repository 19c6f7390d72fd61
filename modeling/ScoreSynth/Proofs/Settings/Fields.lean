import Mathlib.Order.WellFounded
import ScoreSynth.Proofs.Settings
import ScoreSynth.Proofs.Text.Numeral

/-!
# The fields of a channel's settings

The first four words of a block of settings are its fields, each without the one label that
it may begin with.  Whether the settings can be read is decided by these four texts alone:
every one of them has to be legible, and a drum kit must not be transposed.  The first text
that is not legible is reported before anything is said about drums
(`Settings.ofWords_fields`).  Labels put on words that have none therefore change nothing.
-/

namespace ScoreSynth

open Stepwise

theorem Instrument.ofName?_eq_some_iff {name : List Char} {instrument : Instrument} :
    ofName? name = some instrument ↔ name = instrument.name.toList := by
  constructor
  · intro found
    have same := List.find?_some found
    exact (of_decide_eq_true same).symm
  · intro named
    rw [named, ofName?_name]

namespace Settings

/-! ## Labels -/

/-- Whether a text is what is left of a word when its label is taken away.  A word that
begins with no label is left as it is. -/
inductive Unlabels : List Char → List Char → Prop
  | labelled {label : List Char} (known : label ∈ labels) (text : List Char) :
      Unlabels (label ++ text) text
  | bare {word : List Char} (none : ∀ label ∈ labels, ¬ label <+: word) : Unlabels word word

/-- Whether a text is what a position holds: the word there without its label, or nothing if
there are not so many words. -/
inductive Holds (words : List (List Char)) (position : Nat) : List Char → Prop
  | missing (short : words.length ≤ position) : Holds words position []
  | written {word text : List Char} (found : words[position]? = some word)
      (unlabels : Unlabels word text) : Holds words position text

/-- Whether a word is another one, perhaps with a label put before it that had none. -/
inductive Relabels : List Char → List Char → Prop
  | same (word : List Char) : Relabels word word
  | labelled {word label : List Char} (bare : ∀ other ∈ labels, ¬ other <+: word)
      (known : label ∈ labels) : Relabels word (label ++ word)

theorem withoutLabel_of_bare {word : List Char} (bare : ∀ label ∈ labels, ¬ label <+: word) :
    withoutLabel word = word := by
  have unlabelled : (labels.findSome? fun label => label.isPrefixOf? word) = none := by
    rw [List.findSome?_eq_none_iff]
    intro label known
    rw [Option.eq_none_iff_forall_ne_some]
    intro rest begins
    exact bare label known ⟨rest, List.isPrefixOf?_eq_some_iff_append_eq.1 begins⟩
  rw [withoutLabel, unlabelled]
  rfl

theorem withoutLabel_eq_iff {word text : List Char} :
    withoutLabel word = text ↔ Unlabels word text := by
  constructor
  · intro rfl
    by_cases bare : ∀ label ∈ labels, ¬ label <+: word
    · rw [withoutLabel_of_bare bare]
      exact .bare bare
    · simp only [not_forall, not_not] at bare
      rcases bare with ⟨label, known, rest, rfl⟩
      rw [withoutLabel_append known]
      exact .labelled known rest
  · intro unlabels
    cases unlabels with
    | labelled known => exact withoutLabel_append known text
    | bare none => exact withoutLabel_of_bare none

theorem textOf_eq_iff {words : List (List Char)} {field : Field} {text : List Char} :
    textOf words field = text ↔ Holds words field.position text := by
  rw [textOf]
  constructor
  · intro rfl
    cases found : words[field.position]? with
    | none => exact .missing (List.getElem?_eq_none_iff.1 found)
    | some word => exact .written found (withoutLabel_eq_iff.1 rfl)
  · intro holds
    cases holds with
    | missing short =>
        rw [List.getElem?_eq_none short]
        rfl
    | written found unlabels =>
        rw [found]
        exact withoutLabel_eq_iff.2 unlabels

/-- A label that is put on a word is taken away again. -/
theorem Relabels.withoutLabel_eq {word other : List Char} (relabels : Relabels word other) :
    withoutLabel other = withoutLabel word := by
  cases relabels with
  | same => rfl
  | labelled bare known => rw [withoutLabel_append known, withoutLabel_of_bare bare]

theorem textOf_of_relabels {words others : List (List Char)}
    (relabels : List.Forall₂ Relabels words others) (field : Field) :
    textOf others field = textOf words field := by
  have unlabelled : words.map withoutLabel = others.map withoutLabel :=
    map_eq_of_forall₂ relabels fun _ _ first => first.withoutLabel_eq.symm
  rw [textOf, textOf, ← List.getElem?_map, ← List.getElem?_map, unlabelled]

/-! ## Texts of the fields -/

/-- Whether a text spells a number that thirty-two bits hold. -/
def Spells32 (text : List Char) (number : Int) : Prop :=
  Numeral.SpellsSigned text number ∧ Numeral.lowest32 ≤ number ∧ number ≤ Numeral.highest32

/-- Whether a text can be read as a field. -/
def Legible : Field → List Char → Prop
  | .volume, text | .transposition, text => ∃ number, Spells32 text number
  | .sampleRate, text => ∃ rate, SampleRate.ofText? text = some rate
  | .instrument, text => ∃ instrument : Instrument, text = instrument.name.toList

/-- Whether the texts of the fields are those of some settings. -/
structure States (text : Field → List Char) (settings : Settings) : Prop where
  volume : ∃ percent, Spells32 (text .volume) percent ∧
    settings.volume = Float.ofInt percent / 100
  transposition : Spells32 (text .transposition) settings.transposition
  rate : SampleRate.ofText? (text .sampleRate) = some settings.rate
  instrument : text .instrument = settings.instrument.name.toList
  untransposed : ¬ (settings.instrument = .drum ∧ settings.transposition ≠ 0)

/-- Whether a field is the first one that cannot be read. -/
def FirstIllegible (text : Field → List Char) (field : Field) : Prop :=
  ¬ Legible field (text field) ∧
    ∀ earlier : Field, earlier.position < field.position → Legible earlier (text earlier)

/-- Whether all fields can be read, and transpose a drum kit. -/
structure TransposesDrum (text : Field → List Char) : Prop where
  legible : ∀ field, Legible field (text field)
  drum : text .instrument = Instrument.drum.name.toList
  transposed : ∃ number, Spells32 (text .transposition) number ∧ number ≠ 0

variable {words : List (List Char)}

theorem require_eq_error {α : Type} {field : Field} {read : List Char → Option α}
    {text : List Char} {fault : Fault} :
    require field read text = .error fault ↔ read text = none ∧ fault = .badField field text := by
  unfold require
  split
  · next value found => simp [found]
  · next missing => simp [missing, eq_comm]

theorem signed32?_eq_some_iff {text : List Char} {number : Int} :
    Numeral.signed32? text = some number ↔ Spells32 text number :=
  Numeral.integer?_eq_some_iff

/-- Only the texts of the fields matter. -/
theorem ofWords_congr {others : List (List Char)}
    (same : ∀ field, textOf others field = textOf words field) : ofWords others = ofWords words := by
  rw [ofWords, ofWords]
  simp only [same]

/-- Words behind the fourth belong to no field. -/
theorem textOf_take (words : List (List Char)) (field : Field) :
    textOf (words.take 4) field = textOf words field := by
  have among : field.position < 4 := by cases field <;> decide
  rw [textOf, textOf, List.getElem?_take_of_lt among]

/-! ## What the fields decide -/

theorem ofWords_eq_ok_iff_states {settings : Settings} :
    ofWords words = .ok settings ↔ States (textOf words) settings := by
  have untransposed : (settings.instrument.isDrum = true → settings.transposition = 0) ↔
      ¬ (settings.instrument = .drum ∧ settings.transposition ≠ 0) := by
    simp [Instrument.isDrum]
  rw [ofWords_eq_ok]
  constructor
  · intro read
    rcases read with ⟨percent, volume, loud, transposition, rate, instrument, free⟩
    exact {
      volume := ⟨percent, signed32?_eq_some_iff.1 volume, loud⟩
      transposition := signed32?_eq_some_iff.1 transposition
      rate := rate
      instrument := Instrument.ofName?_eq_some_iff.1 instrument
      untransposed := untransposed.1 free }
  · intro states
    rcases states.volume with ⟨percent, volume, loud⟩
    exact ⟨percent, signed32?_eq_some_iff.2 volume, loud,
      signed32?_eq_some_iff.2 states.transposition, states.rate,
      Instrument.ofName?_eq_some_iff.2 states.instrument, untransposed.2 states.untransposed⟩

theorem require_of_illegible {α : Type} {field : Field} {read : List Char → Option α}
    {text : List Char} (legible : ∀ value, read text = some value → Legible field text)
    (illegible : ¬ Legible field text) : require field read text = .error (.badField field text) := by
  have unread : read text = none :=
    Option.eq_none_iff_forall_ne_some.2 fun value found => illegible (legible value found)
  exact require_eq_error.2 ⟨unread, rfl⟩

/-- The first field that cannot be read is reported. -/
theorem ofWords_of_firstIllegible {field : Field}
    (first : FirstIllegible (textOf words) field) :
    ofWords words = .error (.badField field (textOf words field)) := by
  rcases first with ⟨illegible, before⟩
  have number (value : Int) (read : Numeral.signed32? (textOf words field) = some value) :
      ∃ number, Spells32 (textOf words field) number :=
    ⟨value, signed32?_eq_some_iff.1 read⟩
  rw [ofWords]
  -- The fields before it are read, one more in each case.
  cases field with
  | volume =>
      rw [require_of_illegible number illegible]
      rfl
  | transposition =>
      rcases before .volume (by decide) with ⟨percent, volume⟩
      rw [require_eq_ok.2 (signed32?_eq_some_iff.2 volume), ok_bind,
        require_of_illegible number illegible]
      rfl
  | sampleRate =>
      rcases before .volume (by decide) with ⟨percent, volume⟩
      rcases before .transposition (by decide) with ⟨transposition, spelled⟩
      have rate (value : Nat) (read : SampleRate.ofText? (textOf words .sampleRate) =
          some value) : Legible .sampleRate (textOf words .sampleRate) :=
        ⟨value, read⟩
      rw [require_eq_ok.2 (signed32?_eq_some_iff.2 volume), ok_bind,
        require_eq_ok.2 (signed32?_eq_some_iff.2 spelled), ok_bind,
        require_of_illegible rate illegible]
      rfl
  | instrument =>
      rcases before .volume (by decide) with ⟨percent, volume⟩
      rcases before .transposition (by decide) with ⟨transposition, spelled⟩
      rcases before .sampleRate (by decide) with ⟨rate, rated⟩
      have named (value : Instrument) (read : Instrument.ofName? (textOf words .instrument) =
          some value) : Legible .instrument (textOf words .instrument) :=
        ⟨value, Instrument.ofName?_eq_some_iff.1 read⟩
      rw [require_eq_ok.2 (signed32?_eq_some_iff.2 volume), ok_bind,
        require_eq_ok.2 (signed32?_eq_some_iff.2 spelled), ok_bind, require_eq_ok.2 rated,
        ok_bind, require_of_illegible named illegible]
      rfl

theorem ofWords_of_transposesDrum (transposes : TransposesDrum (textOf words)) :
    ofWords words = .error .transposedDrum := by
  rcases transposes.legible .volume with ⟨percent, volume⟩
  rcases transposes.transposed with ⟨transposition, spelled, some⟩
  rcases transposes.legible .sampleRate with ⟨rate, rated⟩
  have drum := Instrument.ofName?_eq_some_iff.2 transposes.drum
  rw [ofWords, require_eq_ok.2 (signed32?_eq_some_iff.2 volume), ok_bind,
    require_eq_ok.2 (signed32?_eq_some_iff.2 spelled), ok_bind, require_eq_ok.2 rated, ok_bind,
    require_eq_ok.2 drum, ok_bind, if_pos ⟨rfl, some⟩]
  rfl

/-- If not all fields can be read, there is a first one that cannot. -/
theorem legible_or_exists_firstIllegible (text : Field → List Char) :
    (∀ field, Legible field (text field)) ∨ ∃ field, FirstIllegible text field := by
  by_cases all : ∀ field, Legible field (text field)
  · exact .inl all
  · rcases (measure Field.position).wf.has_min {field | ¬ Legible field (text field)}
      (not_forall.1 all) with ⟨first, illegible, least⟩
    refine .inr ⟨first, illegible, fun earlier before => ?_⟩
    exact not_not.1 fun other => least earlier other before

theorem States.legible {text : Field → List Char} {settings : Settings}
    (states : States text settings) : ∀ field, Legible field (text field)
  | .volume => states.volume.imp fun _ => And.left
  | .transposition => ⟨settings.transposition, states.transposition⟩
  | .sampleRate => ⟨settings.rate, states.rate⟩
  | .instrument => ⟨settings.instrument, states.instrument⟩

/-- Four texts state settings, or there is a first one that is not legible, or they transpose
a drum kit. -/
theorem ofWords_cases (words : List (List Char)) :
    (∃ settings, States (textOf words) settings) ∨
      (∃ field, FirstIllegible (textOf words) field) ∨ TransposesDrum (textOf words) := by
  rcases legible_or_exists_firstIllegible (textOf words) with legible | illegible
  · rcases legible .volume with ⟨percent, volume⟩
    rcases legible .transposition with ⟨transposition, transposed⟩
    rcases legible .sampleRate with ⟨rate, rated⟩
    rcases legible .instrument with ⟨instrument, named⟩
    by_cases conflict : instrument = .drum ∧ transposition ≠ 0
    · rcases conflict with ⟨rfl, some⟩
      exact .inr (.inr ⟨legible, named, transposition, transposed, some⟩)
    · exact .inl ⟨⟨Float.ofInt percent / 100, transposition, rate, instrument⟩,
        ⟨percent, volume, rfl⟩, transposed, rated, named, conflict⟩
  · exact .inr (.inl illegible)

/-- Settings are read by their fields.  A field is the text of its word without a label.  The
settings are what the four texts state; they can be had exactly when every text is legible
and no drum kit is transposed.  Otherwise the first text that is not legible is reported, and
a drum kit only if there is none.  Words behind the fourth have no meaning, and neither has a
label that is put on a word without one, be it the field's own or another. -/
theorem ofWords_fields (words : List (List Char)) :
    (∀ field text, textOf words field = text ↔ Holds words field.position text) ∧
    (∀ settings, ofWords words = .ok settings ↔ States (textOf words) settings) ∧
    ((∃ settings, ofWords words = .ok settings) ↔
      (∀ field, Legible field (textOf words field)) ∧ ¬ TransposesDrum (textOf words)) ∧
    (∀ fault, ofWords words = .error fault ↔
      (∃ field, FirstIllegible (textOf words) field ∧
        fault = .badField field (textOf words field)) ∨
      (TransposesDrum (textOf words) ∧ fault = .transposedDrum)) ∧
    ofWords (words.take 4) = ofWords words ∧
    ∀ others, List.Forall₂ Relabels words others → ofWords others = ofWords words := by
  refine ⟨fun _ _ => textOf_eq_iff, fun _ => ofWords_eq_ok_iff_states, ?_, ?_, ?_, ?_⟩
  · constructor
    · intro read
      rcases read with ⟨settings, read⟩
      refine ⟨(ofWords_eq_ok_iff_states.1 read).legible, fun transposes => ?_⟩
      rw [ofWords_of_transposesDrum transposes] at read
      cases read
    · intro good
      rcases ofWords_cases words with
        ⟨settings, states⟩ | ⟨field, illegible, _⟩ | transposes
      · exact ⟨settings, ofWords_eq_ok_iff_states.2 states⟩
      · exact absurd (good.1 field) illegible
      · exact absurd transposes good.2
  · intro fault
    constructor
    · intro failed
      rcases ofWords_cases words with ⟨settings, states⟩ | ⟨field, first⟩ | transposes
      · rw [ofWords_eq_ok_iff_states.2 states] at failed
        cases failed
      · rw [ofWords_of_firstIllegible first] at failed
        cases failed
        exact .inl ⟨field, first, rfl⟩
      · rw [ofWords_of_transposesDrum transposes] at failed
        cases failed
        exact .inr ⟨transposes, rfl⟩
    · intro blamed
      rcases blamed with ⟨field, first, rfl⟩ | ⟨transposes, rfl⟩
      · exact ofWords_of_firstIllegible first
      · exact ofWords_of_transposesDrum transposes
  · exact ofWords_congr (textOf_take words)
  · exact fun others relabels => ofWords_congr (textOf_of_relabels relabels)

/-- Words with labels that stand before the wrong fields, and one word too many. -/
theorem ofWords_fields_mislabelled :
    List.Forall₂ Relabels
      ["80".toList, "-12".toList, "volume=8kHz".toList, "oboe".toList, "A4,5".toList]
      ["instrument=80".toList, "-12".toList, "volume=8kHz".toList, "volume=oboe".toList,
        "transpos=A4,5".toList] ∧
    ofWords ["instrument=80".toList, "-12".toList, "volume=8kHz".toList, "volume=oboe".toList,
        "transpos=A4,5".toList] =
      ofWords ["80".toList, "-12".toList, "volume=8kHz".toList, "oboe".toList, "A4,5".toList] ∧
    ofWords ["instrument=80".toList, "-12".toList, "volume=8kHz".toList, "volume=oboe".toList,
        "transpos=A4,5".toList] = .ok ⟨volumeOfPercent 80, -12, 8192, .oboe⟩ := by
  have relabels : List.Forall₂ Relabels
      ["80".toList, "-12".toList, "volume=8kHz".toList, "oboe".toList, "A4,5".toList]
      ["instrument=80".toList, "-12".toList, "volume=8kHz".toList, "volume=oboe".toList,
        "transpos=A4,5".toList] := by
    refine .cons (.labelled (by decide) (by decide : "instrument=".toList ∈ labels)) ?_
    refine .cons (.same _) (.cons (.same _) ?_)
    refine .cons (.labelled (by decide) (by decide : "volume=".toList ∈ labels)) ?_
    exact .cons (.labelled (by decide) (by decide : "transpos=".toList ∈ labels)) .nil
  refine ⟨relabels, (ofWords_fields _).2.2.2.2.2 _ relabels, ?_⟩
  decide +kernel

/-- A drum kit is transposed, but the rate is reported, for it is looked at first. -/
example : ofWords ["50".toList, "+5".toList, "samplerate=fast".toList, "drum".toList] =
    .error (.badField .sampleRate "fast".toList) := by
  decide +kernel

end Settings

end ScoreSynth
