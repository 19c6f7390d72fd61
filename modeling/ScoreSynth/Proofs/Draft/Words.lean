import Mathlib.Data.List.Basic
import ScoreSynth.Draft
import ScoreSynth.Proofs.Note
import ScoreSynth.Proofs.Runs
import ScoreSynth.Proofs.SampleRate
import ScoreSynth.Proofs.Settings
import ScoreSynth.Proofs.Token.Reading

/-!
# The words of a draft

Every word that a draft is written with is a word of a document, and none but the
reserved ones is reserved.  Each is read back as what it was written for: a note as the
note that is played, the words for the settings of a channel as these settings, and the
word for the tempo as the tempo.
-/

namespace ScoreSynth

/-! ## Characters of words -/

theorem Text.plain_of_isDigit {character : Char} (digit : character.isDigit = true) :
    isBlank character = false ∧ character ≠ ';' := by
  have bounds : 48 ≤ character.toNat ∧ character.toNat ≤ 57 :=
    Char.isDigit_iff_toNat.1 digit
  constructor
  · exact isBlank_eq_false (by omega) (by omega)
  · intro same
    rw [same] at digit
    cases digit

namespace Numeral

theorem plain_of_mem_ofNat {number : Nat} {character : Char}
    (member : character ∈ ofNat number) :
    Text.isBlank character = false ∧ character ≠ ';' :=
  Text.plain_of_isDigit (isDigit_of_mem_ofNat member)

theorem plain_of_mem_ofInt {number : Int} {character : Char}
    (member : character ∈ ofInt number) :
    Text.isBlank character = false ∧ character ≠ ';' := by
  cases number with
  | ofNat magnitude => exact plain_of_mem_ofNat member
  | negSucc less =>
      cases member with
      | head => decide
      | tail _ later => exact plain_of_mem_ofNat later

theorem isWord_ofNat (number : Nat) : Text.IsWord (ofNat number) :=
  ⟨ofNat_ne_nil number, fun _ => plain_of_mem_ofNat⟩

/-- A number has a digit, and digits come before the letters in ASCII. -/
theorem exists_mem_ofNat (number : Nat) :
    ∃ digit ∈ ofNat number, digit.toNat < 97 := by
  rcases List.exists_mem_of_ne_nil _ (ofNat_ne_nil number) with ⟨digit, member⟩
  have high : digit.toNat ≤ 57 := (Char.isDigit_iff_toNat.1 (isDigit_of_mem_ofNat member)).2
  exact ⟨digit, member, Nat.lt_of_le_of_lt high (by decide)⟩

end Numeral

theorem Keyword.isWord_text (keyword : Keyword) : Text.IsWord keyword.text := by
  cases keyword <;> decide

/-! ## Notes -/

namespace DraftNote

variable {instrument : Instrument} {transposition : Int} {note : DraftNote}

/-- The word for a note that can be played begins with the name of its pitch. -/
theorem exists_name (playable : note.Playable instrument transposition) :
    ∃ name, note.pitch.name? = some name ∧
      note.word = name ++ ',' :: Numeral.ofNat note.duration := by
  have pitched : note.pitch = Pitch.rest ∨ note.pitch.isKey = true ∨
      note.pitch.isPercussion = true := by
    rcases playable.2 with rest | own
    · exact .inl rest
    split at own
    · exact .inr (.inr own)
    · exact .inr (.inl own.1)
  rcases Option.isSome_iff_exists.1 ((Pitch.isSome_name?_iff note.pitch).2 pitched) with
    ⟨name, named⟩
  exact ⟨name, named, by rw [word, named, Option.getD_some]⟩

theorem isWord_word (playable : note.Playable instrument transposition) :
    Text.IsWord note.word := by
  rcases exists_name playable with ⟨name, named, spelled⟩
  rw [spelled]
  apply Text.isWord_append (Pitch.isWord_of_name?_eq_some named).1
  intro character member
  cases member with
  | head => decide
  | tail _ later => exact Numeral.plain_of_mem_ofNat later

theorem is_eq_false_of_word {token : Token} (spelled : token.text = note.word)
    (keyword : Keyword) : token.is keyword = false := by
  have comma : ',' ∈ token.text := by
    rw [spelled, word]
    simp
  exact Token.is_eq_false_of_mem comma (by decide) keyword

/-- The word for a note is read as the note that is played. -/
theorem ofToken_word (playable : note.Playable instrument transposition)
    (multiplier : Float) (line blankLines : Nat) :
    Note.ofToken multiplier ⟨note.word, line, blankLines⟩ =
      .ok (note.played multiplier line) := by
  rcases exists_name playable with ⟨name, named, spelled⟩
  have kept : ∀ character ∈ name, decide (character ≠ ',') = true := by
    intro character member
    apply decide_eq_true
    intro comma
    rw [comma] at member
    exact (Pitch.isWord_of_name?_eq_some named).2 member
  have parts : Note.parts? note.word = some (name, Numeral.ofNat note.duration) := by
    rw [spelled, Note.parts?, Runs.dropWhile_append_cons kept (by decide),
      Runs.takeWhile_append_cons kept (by decide)]
  exact Note.ofToken_eq_ok.2 ⟨name, Numeral.ofNat note.duration, note.duration, parts,
    Pitch.ofName?_eq_some_iff.2 named, Numeral.natural?_ofNat playable.1, rfl, rfl⟩

/-- A note that can be played is admitted by the settings it can be played with. -/
theorem admits_played {settings : Settings} (multiplier : Float) (line : Nat)
    (playable : note.Playable settings.instrument settings.transposition) :
    settings.Admits (note.played multiplier line) := by
  rcases playable.2 with rest | own
  · exact .inl rest
  by_cases drum : settings.instrument.isDrum = true
  · rw [if_pos drum] at own
    exact .inr ⟨by simp [Instrument.plays, drum, played, own], .inl drum⟩
  · rw [if_neg drum] at own
    have noPercussion := Pitch.isPercussion_eq_false_of_isKey own.1
    exact .inr ⟨by simp [Instrument.plays, drum, played, noPercussion], .inr own.2⟩

end DraftNote

/-! ## Settings -/

/-- The text of a field is what its label stands before. -/
theorem Settings.textOf_labelled {words : List (List Char)} {field : Field}
    {text : List Char} (label : List Char) (known : label ∈ labels)
    (written : words[field.position]? = some (label ++ text)) : textOf words field = text := by
  rw [textOf, written]
  exact withoutLabel_append known text

theorem Settings.isWord_of_mem_labels :
    ∀ label ∈ labels, Text.IsWord label ∧ '=' ∈ label := by
  decide +kernel

theorem Settings.isWord_labelled {label text : List Char} (known : label ∈ labels)
    (plain : ∀ character ∈ text, Text.isBlank character = false ∧ character ≠ ';') :
    Text.IsWord (label ++ text) ∧ '=' ∈ label ++ text := by
  rcases isWord_of_mem_labels label known with ⟨good, equals⟩
  exact ⟨Text.isWord_append good plain, List.mem_append_left text equals⟩

theorem SampleRate.ofText?_ofNat {rate : Nat} (positive : 0 < rate)
    (small : rate < Numeral.bound32) :
    ofText? (Numeral.ofNat rate ++ "Hz".toList) = some rate := by
  have spelled := Numeral.spells_ofNat rate
  exact (ofTextWith?_hertz_eq_some_iff (not_kilohertz_of_spells spelled)).2
    ⟨spelled, positive, small⟩

namespace DraftChannel

variable {multiplier : Float} {channel : DraftChannel}

/-- The words for settings are words that hold an equals sign. -/
theorem isWord_of_mem_settingsWords {word : List Char}
    (member : word ∈ channel.settingsWords) : Text.IsWord word ∧ '=' ∈ word := by
  have hertz : ∀ character ∈ Numeral.ofNat channel.rate ++ "Hz".toList,
      Text.isBlank character = false ∧ character ≠ ';' := by
    intro character inText
    rcases List.mem_append.1 inText with digit | unit
    · exact Numeral.plain_of_mem_ofNat digit
    · exact (by decide : Text.IsWord "Hz".toList).2 character unit
  have named : Text.IsWord channel.instrument.name.toList := by
    cases channel.instrument <;> decide
  simp only [settingsWords, List.mem_cons, List.not_mem_nil, or_false,
    List.append_assoc] at member
  rcases member with rfl | rfl | rfl | rfl
  · exact Settings.isWord_labelled (by decide) fun _ => Numeral.plain_of_mem_ofInt
  · exact Settings.isWord_labelled (by decide) fun _ => Numeral.plain_of_mem_ofInt
  · exact Settings.isWord_labelled (by decide) hertz
  · exact Settings.isWord_labelled (by decide) named.2

/-- The words for settings are read as the settings. -/
theorem ofWords_settingsWords (playable : channel.Playable multiplier) :
    Settings.ofWords channel.settingsWords = .ok channel.settings := by
  have volume : Settings.textOf channel.settingsWords .volume = Numeral.ofInt channel.percent :=
    Settings.textOf_labelled "volume=".toList (by decide) rfl
  have transposition : Settings.textOf channel.settingsWords .transposition =
      Numeral.ofInt channel.transposition :=
    Settings.textOf_labelled "transpos=".toList (by decide) rfl
  have rate : Settings.textOf channel.settingsWords .sampleRate =
      Numeral.ofNat channel.rate ++ "Hz".toList := by
    apply Settings.textOf_labelled "samplerate=".toList (by decide)
    rw [← List.append_assoc]
    rfl
  have instrument : Settings.textOf channel.settingsWords .instrument =
      channel.instrument.name.toList :=
    Settings.textOf_labelled "instrument=".toList (by decide) rfl
  rw [Settings.ofWords_eq_ok, volume, transposition, rate, instrument]
  refine ⟨channel.percent, ?_, rfl, ?_, ?_, ?_, playable.drum_transposition⟩
  · exact Numeral.integer?_ofInt playable.percent_mem.1 playable.percent_mem.2
  · exact Numeral.integer?_ofInt playable.transposition_mem.1 playable.transposition_mem.2
  · exact SampleRate.ofText?_ofNat playable.rate_mem.1 playable.rate_mem.2
  · exact Instrument.ofName?_name channel.instrument

end DraftChannel

/-! ## Tempo -/

theorem Tempo.isWord_ofNat (tempo : Tempo) :
    Text.IsWord (Numeral.ofNat tempo.percent ++ ['%']) := by
  have percent : Text.IsWord ['%'] := by decide
  exact Text.isWord_append (Numeral.isWord_ofNat tempo.percent) percent.2

theorem Score.tempoOfToken_ofNat {tempo : Tempo} (positive : 0 < tempo.percent)
    (small : tempo.percent < Numeral.bound32) (line blankLines : Nat) :
    tempoOfToken ⟨Numeral.ofNat tempo.percent ++ ['%'], line, blankLines⟩ = .ok tempo := by
  have percent : "%".toList.isSuffixOf? (Numeral.ofNat tempo.percent ++ ['%']) =
      some (Numeral.ofNat tempo.percent) :=
    List.isSuffixOf?_eq_some_iff_append_eq.2 rfl
  rw [tempoOfToken, percent, Option.bind_some, Numeral.natural?_ofNat small,
    Option.filter_some, if_pos (by simpa using positive)]

end ScoreSynth
