import ScoreSynth.Proofs.Tempo
import ScoreSynth.Proofs.Text.Numeral

/-!
# The grammar of notes

A text is a note in exactly one way, or fails to be one in exactly one way
(`Note.Reading`).  The first comma divides it.  Without a comma it is malformed; with an
unknown name before the comma that name is reported, whatever stands behind; and only then
the duration is looked at.  The duration and the name of a note can be told from what it is
read as, so its text is determined up to the way in which the number is spelled
(`Note.ofToken_grammar`).
-/

namespace ScoreSynth

/-- A name stands at one place of the table. -/
theorem Pitch.idxOf?_names_eq_some_iff {name : List Char} {index : Nat} :
    names.idxOf? name = some index ↔ names[index]? = some name := by
  have named : ofName? name = some (index : Int) ↔ names[index]? = some name :=
    ofName?_eq_some_iff
  rw [← named, ofName?, Option.map_eq_some_iff]
  constructor
  · intro found
    exact ⟨index, found, rfl⟩
  · intro found
    rcases found with ⟨other, found, same⟩
    rw [found, Int.ofNat.inj same]

namespace Note

/-- What a text is as a note. -/
inductive Reading where
  | undivided
  | unnamed (name : List Char)
  | untimed
  | note (index written : Nat)
  deriving DecidableEq, Repr

/-- Whether a text is read in some way, told by what stands before and behind its first
comma. -/
inductive ReadsAs : List Char → Reading → Prop
  | undivided {text : List Char} (whole : ',' ∉ text) : ReadsAs text .undivided
  | unnamed {name : List Char} (rest : List Char) (first : ',' ∉ name)
      (unknown : name ∉ Pitch.names) : ReadsAs (name ++ ',' :: rest) (.unnamed name)
  | untimed {name rest : List Char} (first : ',' ∉ name) (known : name ∈ Pitch.names)
      (illegible : ∀ written, Numeral.Spells rest written → Numeral.bound32 ≤ written) :
      ReadsAs (name ++ ',' :: rest) .untimed
  | note {name rest : List Char} {index written : Nat} (first : ',' ∉ name)
      (named : Pitch.names[index]? = some name) (spelled : Numeral.Spells rest written)
      (fits : written < Numeral.bound32) :
      ReadsAs (name ++ ',' :: rest) (.note index written)

/-- Whether a text writes a note: the name of a pitch, a comma, and a duration that thirty-two
bits hold. -/
def Writes (text name : List Char) (written : Nat) : Prop :=
  name ∈ Pitch.names ∧ ∃ rest, text = name ++ ',' :: rest ∧ Numeral.Spells rest written ∧
    written < Numeral.bound32

/-- What comes of a token whose text is read in some way. -/
def Reading.outcome (multiplier : Float) (token : Token) : Reading → Except Fault Note
  | undivided | untimed => .error (.malformedNote token.line token.text)
  | unnamed name => .error (.unknownPitch token.line name)
  | note index written =>
      .ok ⟨(index : Int), (written.toFloat * multiplier).toUInt64.toNat, token.line⟩

/-- The way in which a text is read. -/
def Reading.ofText (text : List Char) : Reading :=
  match parts? text with
  | none => undivided
  | some (name, rest) =>
      match Pitch.names.idxOf? name with
      | none => unnamed name
      | some index =>
          match Numeral.natural? Numeral.bound32 rest with
          | none => untimed
          | some written => note index written

theorem parts?_eq_none_iff {text : List Char} : parts? text = none ↔ ',' ∉ text := by
  constructor
  · intro whole comma
    rcases List.eq_append_cons_of_mem comma with ⟨name, rest, written, first⟩
    rw [parts?_eq_some_iff.2 ⟨written, first⟩] at whole
    cases whole
  · intro whole
    rw [Option.eq_none_iff_forall_ne_some]
    intro divided parts
    rw [(parts?_eq_some_iff.1 parts).1] at whole
    simp at whole

theorem natural?_eq_none_iff {rest : List Char} :
    Numeral.natural? Numeral.bound32 rest = none ↔
      ∀ written, Numeral.Spells rest written → Numeral.bound32 ≤ written := by
  simp only [Option.eq_none_iff_forall_ne_some, ne_eq, Numeral.natural?_eq_some_iff, not_and,
    not_lt]

/-- A token becomes the note that its text is read as. -/
theorem ofToken_eq_outcome (multiplier : Float) (token : Token) :
    ofToken multiplier token = (Reading.ofText token.text).outcome multiplier token := by
  rw [ofToken, Reading.ofText]
  cases parts? token.text with
  | none => rfl
  | some parts =>
      simp only [Pitch.ofName?]
      cases Pitch.names.idxOf? parts.1 with
      | none => rfl
      | some index =>
          simp only [Option.map_some]
          cases Numeral.natural? Numeral.bound32 parts.2 with
          | none => rfl
          | some written => rfl

theorem readsAs_iff {text : List Char} {reading : Reading} :
    ReadsAs text reading ↔ Reading.ofText text = reading := by
  constructor
  · intro reads
    rw [Reading.ofText]
    cases reads with
    | undivided whole => rw [parts?_eq_none_iff.2 whole]
    | unnamed rest first unknown =>
        rw [parts?_eq_some_iff.2 ⟨rfl, first⟩]
        simp only [List.idxOf?_eq_none_iff.2 unknown]
    | untimed first known illegible =>
        rcases List.getElem?_of_mem known with ⟨index, named⟩
        rw [parts?_eq_some_iff.2 ⟨rfl, first⟩]
        simp only [Pitch.idxOf?_names_eq_some_iff.2 named, natural?_eq_none_iff.2 illegible]
    | note first named spelled fits =>
        rw [parts?_eq_some_iff.2 ⟨rfl, first⟩]
        simp only [Pitch.idxOf?_names_eq_some_iff.2 named,
          Numeral.natural?_eq_some_iff.2 ⟨spelled, fits⟩]
  · rintro rfl
    rw [Reading.ofText]
    split
    · next whole => exact .undivided (parts?_eq_none_iff.1 whole)
    · next name rest divided =>
        rcases parts?_eq_some_iff.1 divided with ⟨rfl, first⟩
        split
        · next unknown => exact .unnamed rest first (List.idxOf?_eq_none_iff.1 unknown)
        · next index found =>
            have named := Pitch.idxOf?_names_eq_some_iff.1 found
            split
            · next illegible =>
                exact .untimed first (List.mem_of_getElem? named)
                  (natural?_eq_none_iff.1 illegible)
            · next written read =>
                rcases Numeral.natural?_eq_some_iff.1 read with ⟨spelled, fits⟩
                exact .note first named spelled fits

/-! ## What a note tells of its text -/

theorem Writes.lt {text name : List Char} {written : Nat} (writes : Writes text name written) :
    written < Numeral.bound32 := by
  rcases writes with ⟨_, _, _, _, fits⟩
  exact fits

/-- At the written tempo a duration stays as it is written. -/
theorem scaled_hundred {written : Nat} (fits : written < Numeral.bound32) :
    scaled (Tempo.multiplier ⟨100⟩) written = written := by
  have exactly := (Tempo.scaled_eq (by decide : 0 < 100) (by decide) fits).2
    (Tempo.not_fallsShort_of_le (by decide +kernel) written)
  rw [exactly]
  omega

/-- A note is also written by its name and the plain digits of its duration. -/
theorem Writes.printed {text name : List Char} {written : Nat} (writes : Writes text name written) :
    Writes (name ++ ',' :: Numeral.ofNat written) name written := by
  have read := Numeral.natural?_ofNat writes.lt
  exact ⟨writes.1, _, rfl, Numeral.natural?_eq_some_iff.1 read⟩

/-- A text that writes a note is read as that note, under every multiplier. -/
theorem Writes.ofToken_eq_ok {text name : List Char} {written : Nat}
    (writes : Writes text name written) :
    ∃ index : Nat, Pitch.names[index]? = some name ∧ ∀ multiplier line blankLines,
      ofToken multiplier ⟨text, line, blankLines⟩ =
        .ok ⟨(index : Int), scaled multiplier written, line⟩ := by
  rcases writes with ⟨known, rest, rfl, spelled, fits⟩
  rcases List.getElem?_of_mem known with ⟨index, named⟩
  have first := (Pitch.isWord_of_mem_names name known).2
  refine ⟨index, named, fun multiplier line blankLines => ?_⟩
  rw [ofToken_eq_outcome, readsAs_iff.1 (.note first named spelled fits)]
  rfl

/-- The texts that are read as notes are those that write one. -/
theorem exists_ofToken_eq_ok {multiplier : Float} {token : Token} :
    (∃ note, ofToken multiplier token = .ok note) ↔
      ∃ name written, Writes token.text name written := by
  constructor
  · intro read
    rcases read with ⟨note, read⟩
    rcases Note.ofToken_eq_ok.1 read with ⟨name, rest, written, divided, named, number, _⟩
    rcases Numeral.natural?_eq_some_iff.1 number with ⟨spelled, fits⟩
    rcases Option.map_eq_some_iff.1 named with ⟨index, found, _⟩
    have known := List.mem_of_getElem? (Pitch.idxOf?_names_eq_some_iff.1 found)
    exact ⟨name, written, known, rest, (parts?_eq_some_iff.1 divided).1, spelled, fits⟩
  · intro writes
    rcases writes with ⟨name, written, writes⟩
    rcases writes.ofToken_eq_ok with ⟨index, _, read⟩
    exact ⟨_, read multiplier token.line token.blankLines⟩

/-- Two texts write the same note for all multipliers exactly when they write the same name
and the same number. -/
theorem Writes.forall_ofToken_eq_iff {first second name other : List Char} {written value : Nat}
    (writes : Writes first name written) (writesOther : Writes second other value)
    (line gap otherGap : Nat) :
    (∀ multiplier, ofToken multiplier ⟨first, line, gap⟩ =
        ofToken multiplier ⟨second, line, otherGap⟩) ↔ name = other ∧ written = value := by
  rcases writes.ofToken_eq_ok with ⟨index, named, read⟩
  rcases writesOther.ofToken_eq_ok with ⟨place, namedOther, readOther⟩
  simp only [read, readOther]
  constructor
  · intro same
    have notes := Except.ok.inj (same (Tempo.multiplier ⟨100⟩))
    rw [scaled_hundred writes.lt, scaled_hundred writesOther.lt] at notes
    injection notes with pitches durations
    rw [Int.ofNat.inj pitches, namedOther] at named
    exact ⟨(Option.some.inj named).symm, durations⟩
  · intro same
    rcases same with ⟨rfl, rfl⟩
    have found := Pitch.idxOf?_names_eq_some_iff.2 named
    rw [Pitch.idxOf?_names_eq_some_iff.2 namedOther] at found
    cases found
    exact fun _ => rfl

/-- Notes have a grammar.  Every text is read in exactly one of four ways, and that decides
what comes of a token with this text under any multiplier.  The texts that are read as notes
are the names of pitches with a comma and a duration; two of them write the same note for all
multipliers exactly when they agree in the name and in the number.  So the name and the number
of a note can be written out again, and are read as the same note. -/
theorem ofToken_grammar :
    (∀ text, ∃! reading, ReadsAs text reading) ∧
    (∀ multiplier token reading, ReadsAs token.text reading →
      ofToken multiplier token = reading.outcome multiplier token) ∧
    (∀ multiplier token, (∃ note, ofToken multiplier token = .ok note) ↔
      ∃ name written, Writes token.text name written) ∧
    (∀ first second name other written value, Writes first name written →
      Writes second other value → ∀ line gap otherGap,
        (∀ multiplier, ofToken multiplier ⟨first, line, gap⟩ =
          ofToken multiplier ⟨second, line, otherGap⟩) ↔ name = other ∧ written = value) ∧
    ∀ text name written, Writes text name written → ∀ multiplier line gap otherGap, ∃ note,
      ofToken multiplier ⟨text, line, gap⟩ = .ok note ∧
        ofToken multiplier ⟨name ++ ',' :: Numeral.ofNat written, line, otherGap⟩ = .ok note := by
  refine ⟨?_, ?_, ?_, ?_, ?_⟩
  · intro text
    refine ⟨Reading.ofText text, readsAs_iff.2 rfl, fun reading reads => ?_⟩
    exact (readsAs_iff.1 reads).symm
  · intro multiplier token reading reads
    rw [ofToken_eq_outcome, readsAs_iff.1 reads]
  · exact fun multiplier token => exists_ofToken_eq_ok
  · exact fun first second name other written value writes => writes.forall_ofToken_eq_iff
  · intro text name written writes multiplier line gap otherGap
    rcases writes.ofToken_eq_ok with ⟨index, _, read⟩
    have same := (writes.forall_ofToken_eq_iff writes.printed line gap otherGap).2 ⟨rfl, rfl⟩
    exact ⟨_, read multiplier line gap, (same multiplier) ▸ read multiplier line gap⟩

theorem ofToken_grammar_spellings :
    Writes "A4,+0250".toList "A4".toList 250 ∧ Writes "A4,250".toList "A4".toList 250 ∧
      (∀ multiplier, ofToken multiplier ⟨"A4,+0250".toList, 3, 2⟩ =
        ofToken multiplier ⟨"A4,250".toList, 3, 0⟩) ∧
      ReadsAs "Q4,,-1".toList (.unnamed "Q4".toList) ∧
      ∀ multiplier, ofToken multiplier ⟨"Q4,,-1".toList, 3, 0⟩ =
        .error (.unknownPitch 3 "Q4".toList) := by
  have known : "A4".toList ∈ Pitch.names := by decide +kernel
  have read : Numeral.natural? Numeral.bound32 "+0250".toList = some 250 ∧
      Numeral.natural? Numeral.bound32 "250".toList = some 250 := by decide
  have signed : Writes "A4,+0250".toList "A4".toList 250 :=
    ⟨known, _, rfl, Numeral.natural?_eq_some_iff.1 read.1⟩
  have plain : Writes "A4,250".toList "A4".toList 250 :=
    ⟨known, _, rfl, Numeral.natural?_eq_some_iff.1 read.2⟩
  have foreign : "Q4".toList ∉ Pitch.names := by decide +kernel
  have unknown : ReadsAs "Q4,,-1".toList (.unnamed "Q4".toList) :=
    @ReadsAs.unnamed "Q4".toList ",-1".toList (by decide) foreign
  refine ⟨signed, plain, ?_, unknown, ?_⟩
  · exact (ofToken_grammar.2.2.2.1 _ _ _ _ _ _ signed plain 3 2 0).2 ⟨rfl, rfl⟩
  · exact fun multiplier => ofToken_grammar.2.1 multiplier ⟨"Q4,,-1".toList, 3, 0⟩ _ unknown

end Note

end ScoreSynth
