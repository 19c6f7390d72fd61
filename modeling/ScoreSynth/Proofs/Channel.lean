import ScoreSynth.Channel
import ScoreSynth.Proofs.Settings

/-!
# Channels as they grow

A note is added to a channel exactly when the channel can play it and its duration
still fits.  From this follows, token by token, what a whole pass over the notes of a
block does: it succeeds exactly when every token is a note that the channel can play
and the sum of all durations fits, and then the notes stand in the channel in the
order of their tokens.
-/

namespace ScoreSynth.Channel

open Stepwise

/-- The sum of the durations of some notes. -/
def totalDuration (notes : List Note) : Nat :=
  notes.foldr (fun note total => note.duration + total) 0

@[simp] theorem totalDuration_nil : totalDuration [] = 0 := rfl

@[simp] theorem totalDuration_cons (note : Note) (notes : List Note) :
    totalDuration (note :: notes) = note.duration + totalDuration notes := rfl

/-- A channel with more notes at its end. -/
def extend (channel : Channel) (notes : List Note) : Channel :=
  { channel with
    notes := channel.notes ++ notes.toArray
    duration := channel.duration + totalDuration notes }

@[simp] theorem extend_nil (channel : Channel) : channel.extend [] = channel := by
  simp [extend]

theorem extend_cons (channel : Channel) (note : Note) (notes : List Note) :
    channel.extend (note :: notes) = (channel.extend [note]).extend notes := by
  simp [extend, Nat.add_assoc]

@[simp] theorem settings_extend (channel : Channel) (notes : List Note) :
    (channel.extend notes).settings = channel.settings := rfl

@[simp] theorem duration_extend (channel : Channel) (notes : List Note) :
    (channel.extend notes).duration = channel.duration + totalDuration notes := rfl

/-- A note is added exactly when it can be played and its duration fits. -/
theorem push_eq_ok {channel next : Channel} {note : Note} :
    channel.push note = .ok next ↔
      channel.settings.Admits note ∧ channel.duration + note.duration < Numeral.bound64 ∧
        next = channel.extend [note] := by
  unfold push
  simp only [bind_eq_ok, Settings.check_eq_ok_iff, exists_and_left, exists_const]
  by_cases fits : channel.duration + note.duration < Numeral.bound64
  · simp [fits, extend, eq_comm (a := next)]
  · simp [fits]

/-- Adding a note fails when its check fails, and else when its duration does not
fit. -/
theorem push_eq_error {channel : Channel} {note : Note} {fault : Fault} :
    channel.push note = .error fault ↔
      channel.settings.check note = .error fault ∨
        channel.settings.Admits note ∧
          Numeral.bound64 ≤ channel.duration + note.duration ∧
          fault = .durationOverflow note.line := by
  unfold push
  simp only [bind_eq_error, Settings.check_eq_ok_iff, exists_and_left, exists_const]
  by_cases fits : channel.duration + note.duration < Numeral.bound64
  · simp [fits, Nat.not_le_of_lt fits]
  · simp [fits, Nat.le_of_not_lt fits, eq_comm (a := fault)]

/-- Some notes are added exactly when each of them can be played and the sum of all durations
fits.  They then stand in the channel in their order. -/
theorem foldlM_push_eq_ok {channel final : Channel} {notes : List Note}
    (fits : channel.duration < Numeral.bound64) :
    notes.foldlM push channel = .ok final ↔
      (∀ note ∈ notes, channel.settings.Admits note) ∧
        channel.duration + totalDuration notes < Numeral.bound64 ∧
        final = channel.extend notes := by
  induction notes generalizing channel with
  | nil => simp [fits, eq_comm]
  | cons note others ih =>
      rw [List.foldlM_cons, bind_eq_ok]
      constructor
      · intro result
        rcases result with ⟨next, pushed, folded⟩
        obtain ⟨admitted, nextFits, rfl⟩ := push_eq_ok.1 pushed
        obtain ⟨othersAdmitted, total, rfl⟩ := (ih (by simpa)).1 folded
        refine ⟨?_, ?_, (extend_cons channel note others).symm⟩
        · exact List.forall_mem_cons.2 ⟨admitted, othersAdmitted⟩
        · simp only [duration_extend, totalDuration_cons, totalDuration_nil] at total ⊢
          omega
      · intro result
        rcases result with ⟨admitted, total, rfl⟩
        rw [totalDuration_cons] at total
        have nextFits : channel.duration + note.duration < Numeral.bound64 := by omega
        refine ⟨channel.extend [note], push_eq_ok.2 ⟨admitted note (by simp), nextFits, rfl⟩, ?_⟩
        refine (ih (by simpa)).2 ⟨?_, ?_, extend_cons channel note others⟩
        · exact fun other member => admitted other (List.mem_cons_of_mem _ member)
        · simp only [duration_extend, totalDuration_cons, totalDuration_nil]
          omega

/-- Add the note that a token writes. -/
def pushToken (multiplier : Float) (channel : Channel) (token : Token) :
    Except Fault Channel := do
  channel.push (← Note.ofToken multiplier token)

theorem pushTokens_eq_foldlM (multiplier : Float) (channel : Channel)
    (tokens : List Token) :
    channel.pushTokens multiplier tokens = tokens.foldlM (pushToken multiplier) channel :=
  rfl

/-- Adding the notes of some tokens gets through exactly when all of them can be read and the
notes can be added. -/
theorem foldlM_pushToken_eq_ok {multiplier : Float} {channel final : Channel}
    {tokens : List Token} :
    tokens.foldlM (pushToken multiplier) channel = .ok final ↔
      ∃ notes, tokens.mapM (Note.ofToken multiplier) = .ok notes ∧
        notes.foldlM push channel = .ok final := by
  induction tokens generalizing channel with
  | nil => simp
  | cons token others ih =>
      simp only [List.foldlM_cons, List.mapM_cons, bind_eq_ok, pushToken, ih]
      constructor
      · intro result
        rcases result with ⟨next, ⟨note, read, pushed⟩, notes, readOthers, folded⟩
        refine ⟨note :: notes, ⟨note, read, notes, readOthers, rfl⟩, ?_⟩
        rw [List.foldlM_cons, pushed, ok_bind, folded]
      · intro result
        rcases result with ⟨_, ⟨note, read, notes, readOthers, equal⟩, folded⟩
        cases equal
        rw [List.foldlM_cons, bind_eq_ok] at folded
        obtain ⟨next, pushed, folded⟩ := folded
        exact ⟨next, ⟨note, read, pushed⟩, notes, readOthers, folded⟩

/-- The notes of some tokens are added exactly when every token is a note that can be
played and the sum of all durations fits.  They are then added in order. -/
theorem pushTokens_eq_ok {multiplier : Float} {channel final : Channel}
    {tokens : List Token} (fits : channel.duration < Numeral.bound64) :
    channel.pushTokens multiplier tokens = .ok final ↔
      ∃ notes, tokens.mapM (Note.ofToken multiplier) = .ok notes ∧
        (∀ note ∈ notes, channel.settings.Admits note) ∧
        channel.duration + totalDuration notes < Numeral.bound64 ∧
        final = channel.extend notes := by
  simp only [pushTokens_eq_foldlM, foldlM_pushToken_eq_ok, foldlM_push_eq_ok fits]

end ScoreSynth.Channel
