import ScoreSynth.Proofs.Rendering.Capacity
import ScoreSynth.Proofs.Rendering.InPlace

/-!
# Samples on their own

Each sample of a sound is made from its position alone, or, for the snare, from its position and
one word of the tape: the sample behind `n` others takes the word that is drawn behind `n`
others (`Voice.sampleAt`).  Neither the length of the note nor any other sample has a part in it.
So a shorter note is the beginning of a longer one (`Voice.playIn_shorter`), and the words that a
note draws can be told from its length (`Voice.playIn_draws`).
-/

namespace ScoreSynth

/-! ## Tapes by what is drawn next -/

namespace RandomTape

/-- What the word stands for that is drawn next but for so many others. -/
def ahead (tape : RandomTape) (words : Nat) : Float :=
  tape.unit (tape.word (tape.drawn + words))

/-- The tape from which so many more words have been drawn. -/
def after (tape : RandomTape) (words : Nat) : RandomTape :=
  { tape with drawn := tape.drawn + words }

@[simp] theorem after_zero (tape : RandomTape) : tape.after 0 = tape := rfl

@[simp] theorem after_after (tape : RandomTape) (first second : Nat) :
    (tape.after first).after second = tape.after (first + second) := by
  simp [after, Nat.add_assoc]

@[simp] theorem ahead_after (tape : RandomTape) (first second : Nat) :
    (tape.after first).ahead second = tape.ahead (first + second) := by
  simp [after, ahead, Nat.add_assoc]

variable {α β : Type}

theorem run_pure (value : α) (tape : RandomTape) :
    (pure value : StateM RandomTape α).run tape = (value, tape) := rfl

theorem run_bind (first : StateM RandomTape α) (next : α → StateM RandomTape β)
    (tape : RandomTape) :
    (first >>= next).run tape = (next (first.run tape).1).run (first.run tape).2 := rfl

end RandomTape

/-! ## The drum kit -/

namespace Percussion

variable {pitch : Pitch} {volume : Float}

/-- The level of a drum that draws no words, at a sample after the first.  Pitches that are no
percussion sound are silent. -/
def sweep (pitch : Pitch) (position : Nat) : Float :=
  let time := position.toFloat
  if pitch = Pitch.click then 30000 * Float.sin (0.75 * Float.sqrt time) / time
  else if pitch = Pitch.bass then 250000 * Float.sin (0.3 * Float.sqrt time) / time
  else 0

/-- The sample of a drum before its volume is applied.  Only the snare looks at the number that
is drawn. -/
def base (pitch : Pitch) (position : Nat) (number : Float) : Sample :=
  Sample.quantize
    (if pitch = Pitch.snare then snareLevel position number else sweep pitch position)

/-- The number of words that each sample after the first draws. -/
def wordsPerSample (pitch : Pitch) : Nat :=
  if pitch = Pitch.snare then 1 else 0

/-- What a sample draws is gone for the next one, whether it has looked at it or not. -/
theorem base_ahead (pitch : Pitch) (position : Nat) (tape : RandomTape) (turn : Nat) :
    base pitch position (tape.ahead (wordsPerSample pitch + turn)) =
      base pitch position (tape.ahead (turn + 1)) := by
  by_cases noise : pitch = Pitch.snare
  · simp [wordsPerSample, noise, Nat.add_comm]
  · simp [base, noise]

/-- One turn of the loop draws the word that its sample takes, if it takes any. -/
theorem run_sample (pitch : Pitch) (volume : Float) (position : Nat) (tape : RandomTape) :
    (sample pitch volume position).run tape =
      (Sample.scale volume (base pitch position (tape.ahead 0)),
        tape.after (wordsPerSample pitch)) := by
  have levelled : (level pitch position).run tape =
      (if pitch = Pitch.snare then snareLevel position (tape.ahead 0) else sweep pitch position,
        tape.after (wordsPerSample pitch)) := by
    by_cases noise : pitch = Pitch.snare
    · subst noise
      rfl
    · by_cases click : pitch = Pitch.click
      · subst click
        rfl
      · by_cases bass : pitch = Pitch.bass
        · subst bass
          rfl
        · simp [level, sweep, wordsPerSample, noise, click, bass]
          rfl
  rw [sample, RandomTape.run_bind, levelled]
  rfl

/-- The whole loop gives each sample the word that is drawn in its turn. -/
theorem run_mapM_sample (pitch : Pitch) (volume : Float) (start size : Nat) (tape : RandomTape) :
    ((List.range' start size).mapM (sample pitch volume)).run tape =
      ((List.range size).map fun turn =>
          Sample.scale volume (base pitch (start + turn) (tape.ahead turn)),
        tape.after (wordsPerSample pitch * size)) := by
  induction size generalizing start tape with
  | zero => rfl
  | succ size ih =>
      have later (turn : Nat) : start + 1 + turn = start + (turn + 1) := by omega
      have words : wordsPerSample pitch + wordsPerSample pitch * size =
          wordsPerSample pitch * (size + 1) := by
        rw [Nat.mul_succ, Nat.add_comm]
      simp only [List.range'_succ, List.mapM_cons, RandomTape.run_bind, RandomTape.run_pure,
        run_sample, ih, RandomTape.ahead_after, RandomTape.after_after, base_ahead, later, words]
      rw [List.range_succ_eq_map, List.map_cons, List.map_map]
      rfl

/-- The sample that is heard at a position of a drum, given the numbers that are drawn. -/
def sampleAt (pitch : Pitch) (volume : Float) (first : Sample) (numbers : Nat → Float) :
    Nat → Sample
  | 0 => first
  | before + 1 => Sample.scale volume (base pitch (before + 1) (numbers before))

/-- Writing a drum over a buffer leaves the first sample, and draws words for the others. -/
theorem run_overwrite (pitch : Pitch) (volume : Float) (first : Sample) (others : List Sample)
    (tape : RandomTape) :
    (overwrite pitch volume (first :: others)).run tape =
      ((List.range (others.length + 1)).map (sampleAt pitch volume first tape.ahead),
        tape.after (wordsPerSample pitch * others.length)) := by
  simp only [overwrite, RandomTape.run_bind, run_mapM_sample, RandomTape.run_pure,
    List.range_succ_eq_map, List.map_cons, List.map_map, Nat.add_comm 1]
  rfl

/-- What a drum that is written over a buffer makes of it, from one tape to another. -/
structure Overwrites (pitch : Pitch) (volume : Float) (buffer samples : List Sample)
    (tape rest : RandomTape) : Prop where
  length_eq : samples.length = buffer.length
  /-- The first sample is left as it was. -/
  first_eq : samples[0]? = buffer[0]?
  /-- Each later sample of a snare is made from its position and its own word. -/
  snare : pitch = Pitch.snare → ∀ before, before + 1 < buffer.length →
    samples[before + 1]? = some (Sample.scale volume
      (Sample.quantize (snareLevel (before + 1) (tape.ahead before))))
  /-- Each later sample of another drum is made from its position alone. -/
  other : pitch ≠ Pitch.snare → ∀ before, before + 1 < buffer.length →
    samples[before + 1]? = some (Sample.scale volume (Sample.quantize (sweep pitch (before + 1))))
  /-- A snare draws one word for each of these samples, and no other drum draws any. -/
  rest_eq : rest = tape.after (if pitch = Pitch.snare then buffer.length - 1 else 0)

theorem overwrites_overwrite (pitch : Pitch) (volume : Float) (buffer : List Sample)
    (tape : RandomTape) :
    Overwrites pitch volume buffer ((overwrite pitch volume buffer).run tape).1 tape
      ((overwrite pitch volume buffer).run tape).2 := by
  cases buffer with
  | nil =>
      have untouched : (overwrite pitch volume []).run tape = ([], tape) := rfl
      rw [untouched]
      constructor
      case rest_eq => simp
      all_goals simp
  | cons first others =>
      rw [run_overwrite]
      have written (before : Nat) (inside : before + 1 < others.length + 1) :
          ((List.range (others.length + 1)).map
              (sampleAt pitch volume first tape.ahead))[before + 1]? =
            some (Sample.scale volume (base pitch (before + 1) (tape.ahead before))) := by
        rw [List.getElem?_map, List.getElem?_range inside]
        rfl
      constructor
      case length_eq => simp
      case first_eq => simp [sampleAt]
      case snare =>
        intro noise before inside
        rw [written before inside, base, if_pos noise]
      case other =>
        intro silent before inside
        rw [written before inside, base, if_neg silent]
      case rest_eq =>
        by_cases noise : pitch = Pitch.snare
        · simp [wordsPerSample, noise]
        · simp [wordsPerSample, noise]

end Percussion

/-! ## The sound of a voice -/

/-- A longer duration has no fewer samples. -/
theorem Sample.count_mono {duration longer rate size larger : Nat} (shorter : duration ≤ longer)
    (counted : count duration rate = .ok size) (prolonged : count longer rate = .ok larger) :
    size ≤ larger := by
  obtain ⟨_, rfl⟩ := count_eq_ok.1 counted
  obtain ⟨_, rfl⟩ := count_eq_ok.1 prolonged
  exact Nat.div_le_div_right (Nat.mul_le_mul_right rate shorter)

/-- What draws words hands on the tape that it leaves. -/
theorem Synthesis.run_liftState {α : Type} (work : StateM RandomTape α) (tape : RandomTape) :
    (liftM work : Synthesis α).run tape = (.ok (work.run tape).1, (work.run tape).2) := rfl

namespace Voice

variable {voice : Voice} {pitch : Pitch} {grants : Nat → Bool} {duration : Nat}
variable {samples : List Sample} {tape rest : RandomTape}

/-- The sample that is heard at a position, given the numbers that are drawn. -/
def sampleAt (voice : Voice) (pitch : Pitch) (numbers : Nat → Float) (position : Nat) : Sample :=
  if voice.instrument.isDrum then Percussion.sampleAt pitch voice.volume 0 numbers position
  else Waveform.sample voice.instrument voice.volume (Tone.ofPitch pitch voice.rate) position

/-- The number of words that are drawn for so many samples. -/
def words (voice : Voice) (pitch : Pitch) (size : Nat) : Nat :=
  if voice.instrument = .drum ∧ pitch = Pitch.snare then size - 1 else 0

/-- A sample depends on no number but the one that is drawn for it. -/
theorem sampleAt_congr {numbers others : Nat → Float} {position : Nat}
    (same : ∀ before, position = before + 1 → numbers before = others before) :
    voice.sampleAt pitch numbers position = voice.sampleAt pitch others position := by
  cases position with
  | zero => rfl
  | succ before => simp only [sampleAt, Percussion.sampleAt, same before rfl]

theorem words_mono {size larger : Nat} (le : size ≤ larger) :
    voice.words pitch size ≤ voice.words pitch larger := by
  unfold words
  split
  · exact Nat.sub_le_sub_right le 1
  · exact Nat.le_refl 0

theorem sampleAt_of_melodic (melodic : voice.instrument.isDrum = false)
    (numbers : Nat → Float) : voice.sampleAt pitch numbers =
      Waveform.sample voice.instrument voice.volume (Tone.ofPitch pitch voice.rate) := by
  funext position
  rw [sampleAt, melodic, if_neg Bool.false_ne_true]

theorem sampleAt_of_drum (drum : voice.instrument.isDrum = true) (numbers : Nat → Float) :
    voice.sampleAt pitch numbers = Percussion.sampleAt pitch voice.volume 0 numbers := by
  funext position
  rw [sampleAt, if_pos drum]

/-- A buffer of zeros is written over with the sample of each position. -/
theorem run_fill (voice : Voice) (pitch : Pitch) (size : Nat) (tape : RandomTape) :
    (voice.fill pitch size).run tape =
      (.ok ((List.range size).map (voice.sampleAt pitch tape.ahead)),
        tape.after (voice.words pitch size)) := by
  cases kind : voice.instrument.isDrum with
  | false =>
      have melodic : voice.instrument ≠ .drum := of_decide_eq_false kind
      have drawn : voice.words pitch size = 0 := if_neg fun both => melodic both.1
      rw [fill, kind, if_neg Bool.false_ne_true, sampleAt_of_melodic kind, drawn]
      rfl
  | true =>
      have drum : voice.instrument = .drum := of_decide_eq_true kind
      have drawn : voice.words pitch size = Percussion.wordsPerSample pitch * (size - 1) := by
        simp [words, drum, Percussion.wordsPerSample, ite_mul]
      rw [fill, if_pos kind, Synthesis.run_liftState, sampleAt_of_drum kind, drawn]
      cases size with
      | zero => rfl
      | succ size =>
          rw [List.replicate_succ, Percussion.run_overwrite, List.length_replicate,
            Nat.add_sub_cancel]

/-- The size of a sound, or why there is none.  Neither the volume nor the tape has a part in
it. -/
def sizeIn (voice : Voice) (grants : Nat → Bool) (pitch : Pitch) (duration : Nat) :
    Except Fault Nat := do
  voice.instrument.check pitch
  Sample.bufferSizeIn grants duration voice.rate

/-- What is played is told by the size of the sound, position by position. -/
theorem run_playIn (voice : Voice) (grants : Nat → Bool) (pitch : Pitch) (duration : Nat)
    (tape : RandomTape) :
    (voice.playIn grants pitch duration).run tape =
      match voice.sizeIn grants pitch duration with
      | .ok size =>
          (.ok ((List.range size).map (voice.sampleAt pitch tape.ahead)),
            tape.after (voice.words pitch size))
      | .error fault => (.error fault, tape) := by
  simp only [playIn, sizeIn, liftM_overwrite]
  cases voice.instrument.check pitch with
  | error fault => rfl
  | ok _ =>
      cases Sample.bufferSizeIn grants duration voice.rate with
      | error fault => rfl
      | ok size => exact run_fill voice pitch size tape

theorem playIn_eq_ok :
    (voice.playIn grants pitch duration).run tape = (.ok samples, rest) ↔
      ∃ size, voice.sizeIn grants pitch duration = .ok size ∧
        samples = (List.range size).map (voice.sampleAt pitch tape.ahead) ∧
        rest = tape.after (voice.words pitch size) := by
  rw [run_playIn]
  constructor
  · intro played
    cases sized : voice.sizeIn grants pitch duration with
    | error fault =>
        rw [sized] at played
        cases played
    | ok size =>
        rw [sized] at played
        cases played
        exact ⟨size, rfl, rfl, rfl⟩
  · intro played
    obtain ⟨size, sized, rfl, rfl⟩ := played
    rw [sized]

/-- A sound has as many samples as are counted for its duration. -/
theorem count_eq_ok_of_sizeIn {size : Nat}
    (sized : voice.sizeIn grants pitch duration = .ok size) :
    Sample.count duration voice.rate = .ok size := by
  obtain ⟨_, _, granted⟩ := Stepwise.bind_eq_ok.1 sized
  obtain ⟨fits, counted, _⟩ := Sample.bufferSizeIn_eq_ok.1 granted
  exact Sample.count_eq_ok.2 ⟨fits, counted⟩

/-- What a note draws is known from its length.  A drum that is written over a buffer, be it in
place or all at once, leaves the first sample and makes each later one from its position, and for
the snare from the word that is drawn in its turn; so a snare draws a word for each sample but the
first, and no other drum draws any.  A voice draws these words for a snare of a drum kit and
none for any other sound, and none if it fails; the first sample of a drum is silent. -/
theorem playIn_draws :
    (∀ pitch volume buffer tape,
      (Sample.overwriteFrom 1 (Percussion.sample pitch volume) buffer).run tape =
        (Percussion.overwrite pitch volume buffer).run tape ∧
      Percussion.Overwrites pitch volume buffer
        ((Percussion.overwrite pitch volume buffer).run tape).1 tape
        ((Percussion.overwrite pitch volume buffer).run tape).2) ∧
    ∀ (voice : Voice) (pitch : Pitch) (duration : Nat),
      (∀ request, voice.playIn (Memory.ample.grants request) pitch duration =
        voice.sound pitch duration) ∧
      ∀ grants tape, match (voice.playIn grants pitch duration).run tape with
        | (.ok samples, rest) =>
            Sample.count duration voice.rate = .ok samples.length ∧
            rest = tape.after
              (if voice.instrument = .drum ∧ pitch = Pitch.snare then samples.length - 1 else 0) ∧
            (voice.instrument = .drum → 0 < samples.length → samples[0]? = some 0)
        | (.error _, rest) => rest = tape := by
  constructor
  · intro pitch volume buffer tape
    have looped := Percussion.overwrite_eq_overwriteFrom pitch volume buffer
    exact ⟨congrArg (·.run tape) looped.symm,
      Percussion.overwrites_overwrite pitch volume buffer tape⟩
  · intro voice pitch duration
    refine ⟨fun request => voice.playIn_ample request pitch duration, ?_⟩
    intro grants tape
    rw [run_playIn]
    cases sized : voice.sizeIn grants pitch duration with
    | error fault => rfl
    | ok size =>
        simp only [List.length_map, List.length_range]
        refine ⟨count_eq_ok_of_sizeIn sized, rfl, ?_⟩
        intro drum heard
        rw [List.getElem?_map, List.getElem?_range heard, sampleAt_of_drum (decide_eq_true drum)]
        rfl

/-- A shorter note is the beginning of a longer one, in whatever memory each of them is played.
On one tape the samples of the shorter note are the first samples of the longer one, as many as
are counted for it, and the longer note draws no fewer words.  The tapes may even differ in the
words that are drawn behind the shorter note, and a sample stays the same whatever the words are
that are drawn for others. -/
theorem playIn_shorter {short long : Nat} (shorter : short ≤ long) {otherGrants : Nat → Bool}
    {other otherRest : RandomTape} {first second : List Sample}
    (played : (voice.playIn grants pitch short).run tape = (.ok first, rest))
    (prolonged : (voice.playIn otherGrants pitch long).run other = (.ok second, otherRest)) :
    (∀ request duration, voice.playIn (Memory.ample.grants request) pitch duration =
      voice.sound pitch duration) ∧
    Sample.count short voice.rate = .ok first.length ∧
    (∀ position, position < first.length →
      (∀ before, position = before + 1 → tape.ahead before = other.ahead before) →
        first[position]? = second[position]?) ∧
    ((∀ before, before + 1 < first.length → tape.ahead before = other.ahead before) →
      first = second.take first.length) ∧
    ∃ fewer more, fewer ≤ more ∧ rest = tape.after fewer ∧ otherRest = other.after more := by
  obtain ⟨size, sized, rfl, rfl⟩ := playIn_eq_ok.1 played
  obtain ⟨larger, enlarged, rfl, rfl⟩ := playIn_eq_ok.1 prolonged
  have counted := count_eq_ok_of_sizeIn sized
  have within : size ≤ larger := Sample.count_mono shorter counted (count_eq_ok_of_sizeIn enlarged)
  simp only [List.length_map, List.length_range]
  refine ⟨fun request duration => voice.playIn_ample request pitch duration, counted, ?_, ?_, ?_⟩
  · intro position inside same
    rw [List.getElem?_map, List.getElem?_map, List.getElem?_range inside,
      List.getElem?_range (Nat.lt_of_lt_of_le inside within)]
    exact congrArg some (sampleAt_congr same)
  · intro same
    rw [← List.map_take, List.take_range, Nat.min_eq_left within]
    apply List.map_congr_left
    intro position inside
    apply sampleAt_congr
    intro before behind
    exact same before (behind ▸ List.mem_range.1 inside)
  · exact ⟨_, _, words_mono within, rfl, rfl⟩

/-- A voice whose snare has a sample for each millisecond. -/
def snareKit : Voice :=
  ⟨.drum, Settings.volumeOfPercent 50, 1000⟩

/-- Words that stand for the eighths of the unit interval in turn. -/
def eighths : RandomTape :=
  .fresh fun position => UInt64.ofNat position <<< 61

/-- Two of these words, and then only words whose noise is silent. -/
def twoEighths : RandomTape :=
  .fresh fun position => if position < 2 then eighths.word position else RandomTape.middle

theorem playIn_shorter_snare :
    (snareKit.playIn (fun _ => true) Pitch.snare 3).run eighths =
        (.ok [0, -63, -47], eighths.after 2) ∧
      (snareKit.playIn (Memory.ample.grants 0) Pitch.snare 5).run twoEighths =
        (.ok [0, -63, -47, 0, 0], twoEighths.after 4) ∧
      Sample.count 3 snareKit.rate = .ok 3 ∧
      [(0 : Sample), -63, -47] = [0, -63, -47, 0, 0].take 3 := by
  have short : [(0 : Sample), -63, -47] =
      (List.range 3).map (snareKit.sampleAt Pitch.snare eighths.ahead) := by
    decide +kernel
  have long : [(0 : Sample), -63, -47, 0, 0] =
      (List.range 5).map (snareKit.sampleAt Pitch.snare twoEighths.ahead) := by
    decide +kernel
  have played : (snareKit.playIn (fun _ => true) Pitch.snare 3).run eighths =
      (.ok [0, -63, -47], eighths.after 2) :=
    playIn_eq_ok.2 ⟨3, rfl, short, rfl⟩
  have prolonged : (snareKit.playIn (Memory.ample.grants 0) Pitch.snare 5).run twoEighths =
      (.ok [0, -63, -47, 0, 0], twoEighths.after 4) :=
    playIn_eq_ok.2 ⟨5, rfl, long, rfl⟩
  have same (before : Nat) (inside : before + 1 < 3) :
      eighths.ahead before = twoEighths.ahead before := by
    have drawn : 0 + before < 2 := by omega
    simp only [RandomTape.ahead, twoEighths, RandomTape.fresh, if_pos drawn]
    rfl
  obtain ⟨_, counted, _, beginning, _⟩ := playIn_shorter (by decide) played prolonged
  exact ⟨played, prolonged, counted, beginning same⟩

end Voice

end ScoreSynth
