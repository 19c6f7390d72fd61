import ScoreSynth.Proofs.Score.Origins
import ScoreSynth.Proofs.Score.Validity

/-!
# When reading a document breaks

Almost everything that can be wrong with a document is reported, and the report is true of
the document.  The exception is a sum that does not fit in thirty-two bits: a key and a
transposition are added up before their sum is compared with the range of the keys.
Reading breaks exactly at a note where this happens, if everything before that note could
be read.
-/

namespace ScoreSynth

open Stepwise

/-- Behind a step that only reports, two steps break together when the second one does. -/
theorem bind_breaks_iff {α β : Type} {first : Except Fault α} {next : α → Except Fault β}
    {tokens : List Token} {fault : Fault}
    (truthful : FailsOnly (Fault.Truthful tokens) first) :
    (first >>= next) = .error fault ∧ fault.breaks = true ↔
      ∃ value, first = .ok value ∧ next value = .error fault ∧ fault.breaks = true := by
  constructor
  · intro broken
    rcases broken with ⟨failed, breaks⟩
    rcases bind_eq_error.1 failed with failed | ⟨value, done, failed⟩
    · rw [(truthful fault failed).reported] at breaks
      cases breaks
    · exact ⟨value, done, failed, breaks⟩
  · intro broken
    rcases broken with ⟨value, done, failed, breaks⟩
    exact ⟨bind_eq_error.2 (.inr ⟨value, done, failed⟩), breaks⟩

/-! ## The sum that breaks -/

namespace Settings

/-- Whether the sum of a key and the transposition is formed and is too large. -/
def Overflows (settings : Settings) (note : Note) : Prop :=
  settings.instrument.isDrum = false ∧ note.pitch.isKey = true ∧
    Numeral.highest32 < note.pitch + settings.transposition

/-- No sum of a key and a transposition is too low. -/
theorem not_sumFits_iff {settings : Settings} {note : Note} (sound : settings.Sound)
    (key : note.pitch.isKey = true) :
    ¬ settings.SumFits note ↔ Numeral.highest32 < note.pitch + settings.transposition := by
  have positive := ((Pitch.isKey_iff note.pitch).1 key).1
  have low : Numeral.lowest32 ≤ note.pitch + settings.transposition :=
    Int.le_trans sound.transposition_mem.1
      (Int.le_add_of_nonneg_left (Int.le_trans (by decide) positive))
  constructor
  · intro overflow
    apply Int.not_le.1
    intro high
    exact overflow ⟨low, high⟩
  · intro high fits
    exact Int.not_le.2 high fits.2

/-- Checking a note breaks exactly when its sum is too large.  If it is not, the check
succeeds, or it reports that the instrument does not play the note or that the
transposed note is no key. -/
theorem check_breaks_iff {settings : Settings} {note : Note} {fault : Fault}
    (sound : settings.Sound)
    (named : note.pitch = Pitch.rest ∨ note.pitch.isKey = true ∨
      note.pitch.isPercussion = true) :
    settings.check note = .error fault ∧ fault.breaks = true ↔
      settings.Overflows note ∧ fault = .sumOverflow note.pitch settings.transposition := by
  rw [check_eq_error_iff]
  constructor
  · intro broken
    rcases broken with ⟨⟨sounds, found⟩, breaks⟩
    rcases found with ⟨_, rfl⟩ | ⟨plays, melodic, ⟨overflow, rfl⟩ | ⟨_, _, rfl⟩⟩
    · cases breaks
    · have noPercussion : note.pitch.isPercussion = false := by
        simpa [Instrument.plays, melodic] using plays
      have key : note.pitch.isKey = true := by
        simpa [sounds, noPercussion] using named
      exact ⟨⟨melodic, key, (not_sumFits_iff sound key).1 overflow⟩, rfl⟩
    · cases breaks
  · intro broken
    rcases broken with ⟨⟨melodic, key, high⟩, rfl⟩
    have noPercussion := Pitch.isPercussion_eq_false_of_isKey key
    have plays : settings.instrument.plays note.pitch = true := by
      simp [Instrument.plays, melodic, noPercussion]
    -- The index of a rest is below those of the keys.
    have sounds : note.pitch ≠ Pitch.rest := by
      intro rest
      rw [rest] at key
      cases key
    exact ⟨⟨sounds, .inr ⟨plays, melodic, .inl ⟨(not_sumFits_iff sound key).2 high, rfl⟩⟩⟩, rfl⟩

end Settings

namespace Score

/-- Whether building the channel of a block comes to a note: the settings can be read,
and so can all notes before it. -/
def Block.Reaches (multiplier : Float) (index : Nat) (block : Block)
    (settings : Settings) (note : Note) : Prop :=
  Settings.ofWords (block.settings.map (·.text)) = .ok settings ∧
    ∃ before token after channel, block.notes = before ++ token :: after ∧
      (Channel.empty index settings).pushTokens multiplier before = .ok channel ∧
      Note.ofToken multiplier token = .ok note

/-- Whether reading a document comes to a note: all passes before the channels succeed,
and so does everything before the note. -/
def Reaches (source : List Char) (settings : Settings) (note : Note) : Prop :=
  ∃ tokens tempo body expanded earlier block later channels,
    Token.scan source = .ok tokens ∧ takeGlobals tokens = .ok (tempo, body) ∧
    expandLoops body = .ok expanded ∧
    splitBlocks expanded = .ok (earlier ++ block :: later) ∧
    buildChannels tempo.multiplier earlier 0 = .ok channels ∧
    Block.Reaches tempo.multiplier earlier.length block settings note

theorem settings_of_pushTokens_empty {multiplier : Float} {index : Nat}
    {settings : Settings} {tokens : List Token} {channel : Channel}
    (pushed : (Channel.empty index settings).pushTokens multiplier tokens = .ok channel) :
    channel.settings = settings := by
  have fits : (Channel.empty index settings).duration < Numeral.bound64 :=
    (by decide : 0 < Numeral.bound64)
  rcases (Channel.pushTokens_eq_ok fits).1 pushed with ⟨notes, _, _, _, rfl⟩
  rfl

/-- A note breaks a channel exactly when its sum is too large. -/
theorem pushToken_breaks_iff {multiplier : Float} {channel : Channel} {token : Token}
    {fault : Fault} (sound : channel.settings.Sound) :
    channel.pushToken multiplier token = .error fault ∧ fault.breaks = true ↔
      ∃ note, Note.ofToken multiplier token = .ok note ∧
        channel.settings.Overflows note ∧
        fault = .sumOverflow note.pitch channel.settings.transposition := by
  rw [Channel.pushToken, bind_breaks_iff (Note.truthful_ofToken multiplier token)]
  constructor
  · intro broken
    rcases broken with ⟨note, read, failed, breaks⟩
    rcases Channel.push_eq_error.1 failed with failed | ⟨_, _, rfl⟩
    · have named := Note.rest_or_key_or_percussion_of_ofToken read
      exact ⟨note, read, (Settings.check_breaks_iff sound named).1 ⟨failed, breaks⟩⟩
    · cases breaks
  · intro broken
    rcases broken with ⟨note, read, overflows⟩
    have named := Note.rest_or_key_or_percussion_of_ofToken read
    rcases (Settings.check_breaks_iff sound named).2 overflows with ⟨failed, breaks⟩
    exact ⟨note, read, Channel.push_eq_error.2 (.inl failed), breaks⟩

/-- Building a channel breaks exactly at a note whose sum is too large. -/
theorem buildChannel_breaks_iff {multiplier : Float} {index : Nat} {block : Block}
    {fault : Fault} :
    buildChannel multiplier index block = .error fault ∧ fault.breaks = true ↔
      ∃ settings note, block.Reaches multiplier index settings note ∧
        settings.Overflows note ∧ fault = .sumOverflow note.pitch settings.transposition := by
  rw [buildChannel, bind_breaks_iff (Settings.truthful_ofWords _ [])]
  constructor
  · intro broken
    rcases broken with ⟨settings, read, failed, breaks⟩
    rw [Channel.pushTokens_eq_foldlM] at failed
    rcases foldlM_eq_error.1 failed with ⟨before, token, after, channel, cut, pushed, failed⟩
    have same := settings_of_pushTokens_empty pushed
    have sound : channel.settings.Sound := same ▸ Settings.sound_of_ofWords read
    rcases (pushToken_breaks_iff sound).1 ⟨failed, breaks⟩ with ⟨note, readNote, overflows⟩
    rw [same] at overflows
    exact ⟨settings, note, ⟨read, before, token, after, channel, cut, pushed, readNote⟩,
      overflows⟩
  · intro broken
    rcases broken with ⟨settings, note, ⟨read, before, token, after, channel, cut, pushed,
      readNote⟩, overflows⟩
    have same := settings_of_pushTokens_empty pushed
    have sound : channel.settings.Sound := same ▸ Settings.sound_of_ofWords read
    rw [← same] at overflows
    rcases (pushToken_breaks_iff sound).2 ⟨note, readNote, overflows⟩ with ⟨failed, breaks⟩
    refine ⟨settings, read, ?_, breaks⟩
    rw [Channel.pushTokens_eq_foldlM]
    exact foldlM_eq_error.2 ⟨before, token, after, channel, cut, pushed, failed⟩

theorem buildChannels_breaks_iff {multiplier : Float} {blocks : List Block}
    {fault : Fault} :
    buildChannels multiplier blocks 0 = .error fault ∧ fault.breaks = true ↔
      ∃ earlier block later channels settings note, blocks = earlier ++ block :: later ∧
        buildChannels multiplier earlier 0 = .ok channels ∧
        block.Reaches multiplier earlier.length settings note ∧
        settings.Overflows note ∧ fault = .sumOverflow note.pitch settings.transposition := by
  constructor
  · intro broken
    rcases broken with ⟨failed, breaks⟩
    rcases buildChannels_eq_error.1 failed with
      ⟨earlier, block, later, channels, cut, built, failed⟩
    rw [Nat.zero_add] at failed
    rcases buildChannel_breaks_iff.1 ⟨failed, breaks⟩ with ⟨settings, note, reached, broken⟩
    exact ⟨earlier, block, later, channels, settings, note, cut, built, reached, broken⟩
  · intro broken
    rcases broken with ⟨earlier, block, later, channels, settings, note, cut, built,
      reached, broken⟩
    rcases buildChannel_breaks_iff.2 ⟨settings, note, reached, broken⟩ with ⟨failed, breaks⟩
    rw [← Nat.zero_add earlier.length] at failed
    exact ⟨buildChannels_eq_error.2
      ⟨earlier, block, later, channels, cut, built, failed⟩, breaks⟩

/-- Compiling a body breaks only while its channels are built. -/
theorem compile_breaks_iff {multiplier : Float} {tokens : List Token} {fault : Fault} :
    compile multiplier tokens = .error fault ∧ fault.breaks = true ↔
      ∃ expanded, expandLoops tokens = .ok expanded ∧
        ∃ blocks, splitBlocks expanded = .ok blocks ∧
          buildChannels multiplier blocks 0 = .error fault ∧ fault.breaks = true := by
  rw [compile, bind_breaks_iff (truthful_expandLoops tokens)]
  apply exists_congr
  intro expanded
  rw [bind_breaks_iff (truthful_splitBlocks expanded)]

/-- Reading a document breaks only while its body is compiled. -/
theorem parse_breaks_iff_compile {source : List Char} {fault : Fault} :
    parse source = .error fault ∧ fault.breaks = true ↔
      ∃ tokens, Token.scan source = .ok tokens ∧
        ∃ taken, takeGlobals tokens = .ok taken ∧
          compile taken.1.multiplier taken.2 = .error fault ∧ fault.breaks = true := by
  rw [parse, bind_breaks_iff (Token.truthful_scan source)]
  apply exists_congr
  intro tokens
  rw [bind_breaks_iff (truthful_takeGlobals tokens)]
  apply and_congr_right
  intro scanned
  apply exists_congr
  intro taken
  simp [bind_eq_error]

/-- Reading a document breaks exactly when it comes to a note of a channel other than
the drum kit's that is a key, and the sum of this key and the channel's transposition is
higher than thirty-two bits can hold. -/
theorem parse_breaks_iff {source : List Char} {fault : Fault} :
    parse source = .error fault ∧ fault.breaks = true ↔
      ∃ settings note, Reaches source settings note ∧ settings.Overflows note ∧
        fault = .sumOverflow note.pitch settings.transposition := by
  rw [parse_breaks_iff_compile]
  constructor
  · intro broken
    rcases broken with ⟨tokens, scanned, ⟨tempo, body⟩, taken, broken⟩
    rcases compile_breaks_iff.1 broken with ⟨expanded, expand, blocks, split, broken⟩
    rcases buildChannels_breaks_iff.1 broken with
      ⟨earlier, block, later, channels, settings, note, rfl, built, reached, broken⟩
    exact ⟨settings, note, ⟨tokens, tempo, body, expanded, earlier, block, later, channels,
      scanned, taken, expand, split, built, reached⟩, broken⟩
  · intro broken
    rcases broken with ⟨settings, note, ⟨tokens, tempo, body, expanded, earlier, block, later,
      channels, scanned, taken, expand, split, built, reached⟩, broken⟩
    have broken := buildChannels_breaks_iff.2 ⟨earlier, block, later, channels, settings, note,
      rfl, built, reached, broken⟩
    have broken := compile_breaks_iff.2 ⟨expanded, expand, _, split, broken⟩
    exact ⟨tokens, scanned, (tempo, body), taken, broken⟩

/-- A document whose only note is a key, transposed by the largest number that can be
written. -/
def overTransposed : List Char :=
  Text.joinLines
    [Document.header, "globalconfig tempo 100% endglobalconfig".toList,
     "channel config volume=100 transpos=2147483647 ".toList ++
       "samplerate=default instrument=sinwave endconfig".toList,
     "A4,100".toList, "endchannel".toList]

/-- There is a document that breaks. -/
theorem parse_overTransposed :
    parse overTransposed = .error (.sumOverflow Pitch.tuningKey Numeral.highest32) ∧
      Fault.breaks (.sumOverflow Pitch.tuningKey Numeral.highest32) = true := by
  decide +kernel

end Score

end ScoreSynth
