import ScoreSynth.Proofs.Recorder.History

/-!
# Recorders are faithful

A recorder holds what its history says (`Records`).  That is so of a new recorder and stays so
with every operation, hence the captures are what the history says about the sinks that it has
closed (`run_records`).
-/

namespace ScoreSynth.Recorder

/-- A recorder holds what a history says. -/
structure Records (recorder : Recorder) (unavailable : List Nat) (history : List Operation) :
    Prop where
  unavailable_eq : recorder.unavailable = unavailable
  length_sinks : recorder.sinks.length = (rates history).length
  sink?_eq_some_iff {number : Nat} {recording : Recording} :
    recorder.sink? number = some recording ↔
      IsOpen history number ∧ recording? history number = some recording
  captures_eq : recorder.captures.map some = (closings history).map (recording? history)

theorem lt_of_sink?_eq_some {recorder : Recorder} {number : Nat} {recording : Recording}
    (recorded : recorder.sink? number = some recording) : number < recorder.sinks.length := by
  by_contra outside
  simp [sink?, List.getElem?_eq_none (Nat.le_of_not_lt outside)] at recorded

theorem sink?_set (recorder : Recorder) {number : Nat} (lt : number < recorder.sinks.length)
    (entry : Option Recording) (captures : List Recording) (other : Nat) :
    sink? ⟨recorder.unavailable, recorder.sinks.set number entry, captures⟩ other =
      if other = number then entry else recorder.sink? other := by
  rw [sink?, sink?, List.getElem?_set]
  split
  · simp_all
  · simp_all [Ne.symm]

theorem sink?_append (recorder : Recorder) (recording : Recording) (number : Nat) :
    sink? { recorder with sinks := recorder.sinks ++ [some recording] } number =
      if number = recorder.sinks.length then some recording else recorder.sink? number := by
  rw [sink?, sink?, List.getElem?_append]
  rcases Nat.lt_trichotomy number recorder.sinks.length with lt | eq | gt
  · rw [if_pos lt, if_neg (by omega)]
  · simp [eq]
  · rw [if_neg (by omega), if_neg (by omega), List.getElem?_eq_none (by simp; omega),
      List.getElem?_eq_none (by omega)]

namespace Records

variable {recorder : Recorder} {unavailable : List Nat} {history : List Operation}

theorem new (unavailable : List Nat) : Records (new unavailable) unavailable [] where
  unavailable_eq := rfl
  length_sinks := rfl
  sink?_eq_some_iff := by simp [sink?, Recorder.new, recording?, rates]
  captures_eq := rfl

theorem opened (records : Records recorder unavailable history)
    (legal : Legal unavailable history) (rate : Nat) :
    Records { recorder with sinks := recorder.sinks ++ [some (.opened rate)] } unavailable
      (history ++ [.opening rate]) where
  unavailable_eq := records.unavailable_eq
  length_sinks := by simp [rates_concat, Operation.rate?, records.length_sinks]
  sink?_eq_some_iff {number recording} := by
    rw [sink?_append, recording?_concat_opening legal, records.length_sinks,
      isOpen_concat_opening_iff legal]
    split
    · simp_all
    · rename_i ne
      simp [records.sink?_eq_some_iff, ne]
  captures_eq := by
    rw [records.captures_eq, closings_concat]
    simp only [Operation.closed?, Option.toList_none, List.append_nil]
    -- The new sink has a number that no sink had before, a closed one neither.
    refine List.map_congr_left fun number mem => ?_
    have := legal.lt_length_rates_of_mem_closings mem
    rw [recording?_concat_opening legal, if_neg (by omega)]

/-- Writing and draining. -/
theorem changed (records : Records recorder unavailable history) {operation : Operation}
    {number : Nat} {recording : Recording} (works : operation.sink? = some number)
    (stays : operation.closed? = none) (recorded : recorder.sink? number = some recording) :
    Records { recorder with
        sinks := recorder.sinks.set number (some (operation.effect number recording)) }
      unavailable (history ++ [operation]) where
  unavailable_eq := records.unavailable_eq
  length_sinks := by
    simp [rates_concat, Operation.rate?_eq_none_of_sink? works, records.length_sinks]
  sink?_eq_some_iff {other updated} := by
    obtain ⟨isOpen, recording_eq⟩ := records.sink?_eq_some_iff.1 recorded
    rw [sink?_set _ (lt_of_sink?_eq_some recorded),
      isOpen_concat_iff (Operation.rate?_eq_none_of_sink? works) stays]
    split
    · rename_i eq
      rw [eq, recording?_concat (Operation.rate?_eq_none_of_sink? works), recording_eq,
        Option.map_some]
      exact (and_iff_right isOpen).symm
    · rename_i ne
      rw [recording?_concat_of_sink?_ne (Operation.rate?_eq_none_of_sink? works)
        (by simpa [works] using Ne.symm ne), records.sink?_eq_some_iff]
  captures_eq := by
    obtain ⟨isOpen, -⟩ := records.sink?_eq_some_iff.1 recorded
    rw [records.captures_eq, closings_concat, stays, Option.toList_none, List.append_nil]
    -- The sink that changes is open, so it is none of the closed ones.
    refine List.map_congr_left fun other closed => ?_
    refine (recording?_concat_of_sink?_ne (Operation.rate?_eq_none_of_sink? works) ?_).symm
    rw [works]
    rintro ⟨rfl⟩
    exact isOpen.2 closed

theorem closed (records : Records recorder unavailable history) {number : Nat}
    {recording : Recording} (recorded : recorder.sink? number = some recording) :
    Records { recorder with
        sinks := recorder.sinks.set number none
        captures := recorder.captures ++ [recording] }
      unavailable (history ++ [.closing number]) where
  unavailable_eq := records.unavailable_eq
  length_sinks := by simp [rates_concat, Operation.rate?, records.length_sinks]
  sink?_eq_some_iff {other recording} := by
    rw [sink?_set _ (lt_of_sink?_eq_some recorded), recording?_concat_closing,
      isOpen_concat_closing_iff]
    split
    · simp_all
    · rename_i ne
      simp [records.sink?_eq_some_iff, ne]
  captures_eq := by
    obtain ⟨-, recording_eq⟩ := records.sink?_eq_some_iff.1 recorded
    rw [List.map_append, records.captures_eq, closings_concat, List.map_append,
      funext (recording?_concat_closing history number)]
    simp [Operation.closed?, recording_eq]

end Records

/-! ## What operations do -/

theorem perform_opening_of_mem {recorder : Recorder} {rate : Nat}
    (mem : rate ∈ recorder.unavailable) : recorder.perform (.opening rate) =
      (.refused (.sinkUnavailable s!"{rate}Hz output is busy"), recorder) := by
  simp [perform, openSink, checkRate, mem, bind, Except.bind]

theorem perform_opening_of_notMem {recorder : Recorder} {rate : Nat}
    (notMem : rate ∉ recorder.unavailable) : recorder.perform (.opening rate) =
      (.opened recorder.sinks.length,
        { recorder with sinks := recorder.sinks ++ [some (.opened rate)] }) := by
  simp [perform, openSink, checkRate, notMem, bind, Except.bind, pure, Except.pure]

theorem perform_of_sink?_eq_none {recorder : Recorder} {operation : Operation} {number : Nat}
    (works : operation.sink? = some number) (closed : recorder.sink? number = none) :
    recorder.perform operation = (.notOpen, recorder) := by
  cases operation with
  | opening => cases works
  | writing | draining | closing =>
      obtain rfl := Option.some.inj works
      simp [perform, write, drain, change, close, closed, settle]

theorem perform_closing {recorder : Recorder} {number : Nat} {recording : Recording}
    (recorded : recorder.sink? number = some recording) :
    recorder.perform (.closing number) = (.done, { recorder with
      sinks := recorder.sinks.set number none
      captures := recorder.captures ++ [recording] }) := by
  simp [perform, close, recorded, settle]

theorem perform_of_closed?_eq_none {recorder : Recorder} {operation : Operation} {number : Nat}
    {recording : Recording} (works : operation.sink? = some number)
    (stays : operation.closed? = none) (recorded : recorder.sink? number = some recording) :
    recorder.perform operation = (.done, { recorder with
      sinks := recorder.sinks.set number (some (operation.effect number recording)) }) := by
  cases operation with
  | opening => cases works
  | writing | draining =>
      obtain rfl := Option.some.inj works
      simp [perform, write, drain, change, recorded, settle, Operation.effect]
  | closing => cases stays

/-- An operation changes nothing, adds a sink, or changes one sink and may add to the captures. -/
theorem perform_cases (recorder : Recorder) (operation : Operation) :
    (recorder.perform operation).2 = recorder ∨
    (∃ rate, operation = .opening rate ∧ (recorder.perform operation).2 =
      { recorder with sinks := recorder.sinks ++ [some (.opened rate)] }) ∨
    ∃ number entry captured, operation.sink? = some number ∧ number < recorder.sinks.length ∧
      (recorder.perform operation).2 =
        ⟨recorder.unavailable, recorder.sinks.set number entry, recorder.captures ++ captured⟩ := by
  cases operation with
  | opening rate =>
      by_cases mem : rate ∈ recorder.unavailable
      · exact .inl (by rw [perform_opening_of_mem mem])
      · exact .inr (.inl ⟨rate, rfl, by rw [perform_opening_of_notMem mem]⟩)
  | writing number | draining number =>
      cases recorded : recorder.sink? number with
      | none => exact .inl (by rw [perform_of_sink?_eq_none rfl recorded])
      | some =>
          exact .inr (.inr ⟨number, _, [], rfl, lt_of_sink?_eq_some recorded, by
            rw [perform_of_closed?_eq_none rfl rfl recorded, List.append_nil]⟩)
  | closing number =>
      cases recorded : recorder.sink? number with
      | none => exact .inl (by rw [perform_of_sink?_eq_none rfl recorded])
      | some =>
          exact .inr (.inr ⟨number, none, _, rfl, lt_of_sink?_eq_some recorded, by
            rw [perform_closing recorded]⟩)

theorem isSome_recording?_iff (history : List Operation) (number : Nat) :
    (recording? history number).isSome ↔ number < (rates history).length := by
  simp [recording?]

namespace Records

variable {recorder : Recorder} {unavailable : List Nat} {history : List Operation}

theorem isOpen_iff (records : Records recorder unavailable history) (number : Nat) :
    IsOpen history number ↔ (recorder.sink? number).isSome := by
  simp only [Option.isSome_iff_exists, records.sink?_eq_some_iff, exists_and_left]
  refine ⟨fun isOpen => ⟨isOpen, ?_⟩, fun ⟨isOpen, _⟩ => isOpen⟩
  exact Option.isSome_iff_exists.1 ((isSome_recording?_iff _ _).2 isOpen.1)

theorem exists_recorded (records : Records recorder unavailable history) {number : Nat}
    (isOpen : IsOpen history number) : ∃ recording, recorder.sink? number = some recording :=
  Option.isSome_iff_exists.1 ((records.isOpen_iff number).1 isOpen)

theorem perform_of_not_isOpen (records : Records recorder unavailable history)
    {operation : Operation} {number : Nat} (works : operation.sink? = some number)
    (notOpen : ¬IsOpen history number) : recorder.perform operation = (.notOpen, recorder) :=
  perform_of_sink?_eq_none works <|
    Option.not_isSome_iff_eq_none.1 ((records.isOpen_iff number).not.1 notOpen)

theorem perform_of_not_canFollow (records : Records recorder unavailable history)
    {operation : Operation} (cannotFollow : ¬CanFollow unavailable history operation) :
    (recorder.perform operation).2 = recorder := by
  cases operation with
  | opening rate =>
      rw [perform_opening_of_mem (records.unavailable_eq ▸ not_not.1 cannotFollow)]
  | writing | draining | closing => rw [records.perform_of_not_isOpen rfl cannotFollow]

/-- After an operation a recorder holds what the longer history says. -/
theorem perform (records : Records recorder unavailable history)
    (legal : Legal unavailable history) (operation : Operation) :
    Records (recorder.perform operation).2 unavailable
      (extend unavailable history operation) := by
  by_cases canFollow : CanFollow unavailable history operation
  · rw [extend, if_pos canFollow]
    cases operation with
    | opening rate =>
        rw [perform_opening_of_notMem (records.unavailable_eq ▸ canFollow)]
        exact records.opened legal rate
    | writing | draining =>
        obtain ⟨recording, recorded⟩ := records.exists_recorded canFollow
        rw [perform_of_closed?_eq_none rfl rfl recorded]
        exact records.changed rfl rfl recorded
    | closing =>
        obtain ⟨recording, recorded⟩ := records.exists_recorded canFollow
        rw [perform_closing recorded]
        exact records.closed recorded
  · rw [extend, if_neg canFollow, records.perform_of_not_canFollow canFollow]
    exact records

theorem run_new (unavailable : List Nat) (operations : List Operation) :
    Records ((Recorder.new unavailable).run operations) unavailable
      (carriedOut unavailable operations) := by
  induction operations using List.reverseRecOn with
  | nil => exact new unavailable
  | append_singleton operations operation ih =>
      rw [carriedOut_concat, run_concat]
      exact ih.perform (legal_carriedOut unavailable operations) operation

theorem answer_eq (records : Records recorder unavailable history) {operation : Operation}
    {number : Nat} (works : operation.sink? = some number) :
    (recorder.perform operation).1 = if IsOpen history number then .done else .notOpen := by
  split
  · rename_i isOpen
    obtain ⟨recording, recorded⟩ := records.exists_recorded isOpen
    cases operation with
    | opening => cases works
    | writing | draining =>
        rw [perform_of_closed?_eq_none works rfl recorded]
    | closing =>
        obtain rfl := Option.some.inj works
        rw [perform_closing recorded]
  · rename_i notOpen
    rw [records.perform_of_not_isOpen works notOpen]

end Records

/-- What has been captured stays as it is. -/
theorem captures_prefix_perform (recorder : Recorder) (operation : Operation) :
    recorder.captures <+: (recorder.perform operation).2.captures := by
  obtain eq | ⟨rate, -, eq⟩ | ⟨number, entry, captured, -, -, eq⟩ :=
    perform_cases recorder operation
  · exact ⟨[], by rw [eq, List.append_nil]⟩
  · exact ⟨[], by rw [eq, List.append_nil]⟩
  · exact ⟨captured, by rw [eq]⟩

/-- An operation leaves the other sinks as they are. -/
theorem sink?_perform_of_sink?_ne (recorder : Recorder) {operation : Operation} {number : Nat}
    (lt : number < recorder.sinks.length) (other : operation.sink? ≠ some number) :
    (recorder.perform operation).2.sink? number = recorder.sink? number := by
  obtain eq | ⟨rate, -, eq⟩ | ⟨worked, entry, captured, works, lt', eq⟩ :=
    perform_cases recorder operation
  · rw [eq]
  · rw [eq, sink?_append, if_neg (by omega)]
  · have ne : number ≠ worked := fun same => other (same.symm ▸ works)
    rw [eq, sink?_set _ lt', if_neg ne]

/-- After any operations, the captures are the recordings of the sinks that have been closed, in
the order in which they were closed and each once; what a recording holds was sent before its
sink was closed.  The sinks that have not been closed hold what was sent to them and are not
among the captures.  A rate that is not available is refused, and the recorder stays as it is.
No operation changes a capture or a sink that it does not work on. -/
theorem run_records (unavailable : List Nat) (operations : List Operation) :
    let recorder := (new unavailable).run operations
    let history := carriedOut unavailable operations
    recorder.captures.map some = (closings history).map (recording? history) ∧
    (closings history).Nodup ∧
    (∀ before number after, history = before ++ .closing number :: after →
      recording? history number = recording? before number ∧
      ∀ operation ∈ after, operation.sink? ≠ some number) ∧
    (∀ number recording, recorder.sink? number = some recording ↔
      IsOpen history number ∧ recording? history number = some recording) ∧
    (∀ rate ∈ unavailable, recorder.perform (.opening rate) =
      (.refused (.sinkUnavailable s!"{rate}Hz output is busy"), recorder)) ∧
    (∀ rate ∉ unavailable,
      (recorder.perform (.opening rate)).1 = .opened (rates history).length) ∧
    ∀ operation, recorder.captures <+: (recorder.perform operation).2.captures ∧
      (∀ number, operation.sink? = some number →
        (recorder.perform operation).1 = if IsOpen history number then .done else .notOpen) ∧
      ∀ number < (rates history).length, operation.sink? ≠ some number →
        (recorder.perform operation).2.sink? number = recorder.sink? number := by
  intro recorder history
  have records : Records recorder unavailable history := Records.run_new unavailable operations
  have legal : Legal unavailable history := legal_carriedOut unavailable operations
  refine ⟨records.captures_eq, legal.nodup_closings, fun before number after eq => ?_,
    fun _ _ => records.sink?_eq_some_iff, fun rate mem => ?_, fun rate notMem => ?_,
    fun operation => ⟨captures_prefix_perform recorder operation,
      fun number works => records.answer_eq works, fun number lt other => ?_⟩⟩
  · rw [eq] at legal ⊢
    exact ⟨legal.recording?_of_closed, legal.sink?_ne_of_closed⟩
  · exact perform_opening_of_mem (records.unavailable_eq ▸ mem)
  · rw [perform_opening_of_notMem (records.unavailable_eq ▸ notMem), records.length_sinks]
  · exact recorder.sink?_perform_of_sink?_ne (records.length_sinks ▸ lt) other

example : ((new [44100]).run [.opening 8000, .opening 44100, .opening 8000, .writing 0 [1],
    .writing 1 [2], .draining 0, .writing 0 [3], .closing 1, .closing 0]).captures =
      [⟨8000, [2], false⟩, ⟨8000, [1, 3], true⟩] := by
  decide

end ScoreSynth.Recorder
