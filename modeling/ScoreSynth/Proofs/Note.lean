import ScoreSynth.Note
import ScoreSynth.Proofs.Runs
import ScoreSynth.Text.Words

/-!
# Pitches and notes as they are read

The table gives a pitch to a name exactly when the name is that pitch's, so every
pitch that is read is a rest, a key or a percussion sound.  A note that is read has
such a pitch.
-/

namespace ScoreSynth

namespace Pitch

theorem ofName?_eq_some_iff {name : List Char} {pitch : Pitch} :
    ofName? name = some pitch ↔ pitch.name? = some name := by
  unfold ofName?
  constructor
  · intro read
    obtain ⟨index, found, rfl⟩ := Option.map_eq_some_iff.1 read
    obtain ⟨inBounds, equal, _⟩ := List.idxOf?_eq_some_iff.1 found
    exact List.getElem?_eq_some_iff.2 ⟨inBounds, by simpa using equal⟩
  · intro named
    cases pitch with
    | negSucc less => cases named
    | ofNat index =>
        obtain ⟨inBounds, equal⟩ := List.getElem?_eq_some_iff.1 named
        refine Option.map_eq_some_iff.2 ⟨index, ?_, rfl⟩
        refine List.idxOf?_eq_some_iff.2 ⟨inBounds, by simp [equal], ?_⟩
        intro earlier before same
        have sameName : names[earlier] = names[index] := by simpa [equal] using same
        exact Nat.ne_of_lt before ((List.getElem_inj nodup_names).1 sameName)

theorem eq_rest_iff (pitch : Int) : pitch = rest ↔ pitch = 0 := Iff.rfl

/-- The keys are the indices from 1 to 99. -/
theorem isKey_iff (pitch : Int) : isKey pitch = true ↔ 1 ≤ pitch ∧ pitch ≤ 99 := by
  unfold isKey
  rw [Bool.and_eq_true, decide_eq_true_eq, decide_eq_true_eq]
  rfl

/-- The percussion sounds are the indices from 100 to 102. -/
theorem isPercussion_iff (pitch : Int) :
    isPercussion pitch = true ↔ 100 ≤ pitch ∧ pitch ≤ 102 := by
  unfold isPercussion
  rw [Bool.and_eq_true, decide_eq_true_eq, decide_eq_true_eq]
  rfl

theorem isPercussion_eq_false_of_isKey {pitch : Pitch} (key : pitch.isKey = true) :
    pitch.isPercussion = false := by
  rw [Bool.eq_false_iff]
  intro percussion
  have := (isKey_iff pitch).1 key
  have := (isPercussion_iff pitch).1 percussion
  omega

/-- The names belong to the rest, the keys and the percussion sounds. -/
theorem isSome_name?_iff (pitch : Pitch) :
    pitch.name?.isSome = true ↔
      pitch = rest ∨ pitch.isKey = true ∨ pitch.isPercussion = true := by
  rw [eq_rest_iff, isKey_iff, isPercussion_iff]
  cases pitch with
  | negSucc less =>
      have negative := Int.negSucc_lt_zero less
      simp only [name?, Option.isSome_none, Bool.false_eq_true, false_iff]
      omega
  | ofNat index =>
      have bound : (name? (Int.ofNat index)).isSome = true ↔ index < 103 := by
        simp [name?]
      rw [bound, Int.ofNat_eq_natCast]
      omega

theorem rest_or_key_or_percussion_of_ofName? {name : List Char} {pitch : Pitch}
    (read : ofName? name = some pitch) :
    pitch = rest ∨ pitch.isKey = true ∨ pitch.isPercussion = true := by
  rw [← isSome_name?_iff, ofName?_eq_some_iff.1 read]
  rfl

/-- Every name is a word without a comma. -/
theorem isWord_of_mem_names : ∀ name ∈ names, Text.IsWord name ∧ ',' ∉ name := by
  decide +kernel

theorem isWord_of_name?_eq_some {pitch : Pitch} {name : List Char}
    (named : pitch.name? = some name) : Text.IsWord name ∧ ',' ∉ name := by
  cases pitch with
  | negSucc less => cases named
  | ofNat index => exact isWord_of_mem_names name (List.mem_of_getElem? named)

end Pitch

namespace Note

/-- A text has two parts exactly when it has a comma, and the first comma divides them. -/
theorem parts?_eq_some_iff {text name rest : List Char} :
    parts? text = some (name, rest) ↔ text = name ++ ',' :: rest ∧ ',' ∉ name := by
  constructor
  · intro divided
    rw [parts?] at divided
    split at divided
    · cases divided
    · next comma after found =>
        cases divided
        rcases Runs.eq_append_cons_of_dropWhile found with ⟨whole, before, divides⟩
        have comma : comma = ',' := by simpa using divides
        refine ⟨comma ▸ whole, fun inside => ?_⟩
        simpa using before ',' inside
  · intro written
    rcases written with ⟨rfl, unlike⟩
    have kept : ∀ character ∈ name, decide (character ≠ ',') = true := by
      intro character member
      exact decide_eq_true fun same => unlike (same ▸ member)
    rw [parts?, Runs.dropWhile_append_cons kept (by decide),
      Runs.takeWhile_append_cons kept (by decide)]

/-- A token is read as a note exactly when a name stands before its first comma and a
duration behind it. -/
theorem ofToken_eq_ok {multiplier : Float} {token : Token} {note : Note} :
    ofToken multiplier token = .ok note ↔
      ∃ name duration written, parts? token.text = some (name, duration) ∧
        Pitch.ofName? name = some note.pitch ∧
        Numeral.natural? Numeral.bound32 duration = some written ∧
        note.duration = scaled multiplier written ∧ note.line = token.line := by
  obtain ⟨pitch, length, line⟩ := note
  unfold ofToken
  split
  · next missing => simp [missing]
  · next name duration split =>
      simp only [split, Option.some.injEq, Prod.mk.injEq]
      constructor
      · intro read
        split at read
        · cases read
        · next found =>
            split at read
            · cases read
            · next written valid =>
                cases read
                exact ⟨name, duration, written, ⟨rfl, rfl⟩, found, valid, rfl, rfl⟩
      · intro reads
        rcases reads with ⟨_, _, written, ⟨rfl, rfl⟩, found, valid, rfl, rfl⟩
        simp only [found, valid]

theorem rest_or_key_or_percussion_of_ofToken {multiplier : Float} {token : Token}
    {note : Note} (read : ofToken multiplier token = .ok note) :
    note.pitch = Pitch.rest ∨ note.pitch.isKey = true ∨
      note.pitch.isPercussion = true := by
  obtain ⟨_, _, _, _, found, _⟩ := ofToken_eq_ok.1 read
  exact Pitch.rest_or_key_or_percussion_of_ofName? found

end Note

end ScoreSynth
