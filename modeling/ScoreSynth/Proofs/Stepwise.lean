import Mathlib.Data.List.Forall2

/-!
# Steps that may fail

A pass over a list stops at the first step that fails.  These facts read the
steps back from the result of the whole pass: a success says that every step
succeeded, and a failure says which step failed and that the steps before it did
not.
-/

namespace ScoreSynth.Stepwise

variable {α β ε : Type}

@[simp] theorem ok_bind (value : α) (next : α → Except ε β) :
    (Except.ok value >>= next) = next value := rfl

@[simp] theorem error_bind (fault : ε) (next : α → Except ε β) :
    (Except.error fault >>= next) = .error fault := rfl

@[simp] theorem pure_eq_ok (value : α) : (pure value : Except ε α) = .ok value := rfl

@[simp] theorem throw_eq_error (fault : ε) :
    (throw fault : Except ε α) = .error fault := rfl

theorem bind_eq_ok {first : Except ε α} {next : α → Except ε β} {result : β} :
    (first >>= next) = .ok result ↔
      ∃ value, first = .ok value ∧ next value = .ok result := by
  cases first with
  | error fault => simp
  | ok value => simp

/-- Two steps fail together when the first one does, or the first one succeeds
and the second one fails. -/
theorem bind_eq_error {first : Except ε α} {next : α → Except ε β} {fault : ε} :
    (first >>= next) = .error fault ↔
      first = .error fault ∨ ∃ value, first = .ok value ∧ next value = .error fault := by
  cases first with
  | error other => simp
  | ok value => simp

theorem mapError_eq_ok {δ : Type} {work : Except ε α} {wrap : ε → δ} {value : α} :
    work.mapError wrap = .ok value ↔ work = .ok value := by
  cases work with
  | error fault => simp [Except.mapError]
  | ok value => simp [Except.mapError]

/-! ## Kinds of faults -/

/-- Whether a step can fail with faults of one kind only. -/
def FailsOnly (allowed : ε → Prop) (work : Except ε α) : Prop :=
  ∀ fault, work = .error fault → allowed fault

section

variable {allowed : ε → Prop}

theorem failsOnly_ok (value : α) : FailsOnly allowed (.ok value) := by
  intro fault failed
  cases failed

theorem failsOnly_error {fault : ε} (kind : allowed fault) :
    FailsOnly allowed (.error fault : Except ε α) := by
  intro other failed
  cases failed
  exact kind

/-- Faults of one kind are also faults of a wider kind. -/
theorem failsOnly_mono {wider : ε → Prop} {work : Except ε α}
    (implies : ∀ fault, allowed fault → wider fault) (narrow : FailsOnly allowed work) :
    FailsOnly wider work :=
  fun fault failed => implies fault (narrow fault failed)

/-- Only the value that the first step has left matters for the second one. -/
theorem failsOnly_bind_of_ok {first : Except ε α} {next : α → Except ε β}
    (before : FailsOnly allowed first)
    (after : ∀ value, first = .ok value → FailsOnly allowed (next value)) :
    FailsOnly allowed (first >>= next) := by
  intro fault failed
  rcases bind_eq_error.1 failed with failed | ⟨value, done, failed⟩
  · exact before fault failed
  · exact after value done fault failed

theorem failsOnly_bind {first : Except ε α} {next : α → Except ε β}
    (before : FailsOnly allowed first) (after : ∀ value, FailsOnly allowed (next value)) :
    FailsOnly allowed (first >>= next) :=
  failsOnly_bind_of_ok before fun value _ => after value

theorem failsOnly_ite {condition : Prop} [Decidable condition] {first second : Except ε α}
    (holds : FailsOnly allowed first) (fails : FailsOnly allowed second) :
    FailsOnly allowed (if condition then first else second) := by
  split
  · exact holds
  · exact fails

end

/-! ## Reading every element of a list -/

/-- The elements of a list are all read exactly when each of them is. -/
theorem mapM_eq_ok {read : α → Except ε β} {elements : List α} {results : List β} :
    elements.mapM read = .ok results ↔
      List.Forall₂ (fun element result => read element = .ok result) elements results := by
  induction elements generalizing results with
  | nil => simp [eq_comm]
  | cons element others ih =>
      rw [List.mapM_cons, bind_eq_ok]
      constructor
      · intro result
        rcases result with ⟨value, readFirst, readOthers⟩
        obtain ⟨values, readRest, equal⟩ := bind_eq_ok.1 readOthers
        cases equal
        exact .cons readFirst (ih.1 readRest)
      · intro related
        cases related with
        | cons readFirst readOthers =>
            exact ⟨_, readFirst, bind_eq_ok.2 ⟨_, ih.2 readOthers, rfl⟩⟩

theorem exists_mapM_eq_ok {read : α → Except ε β} {elements : List α} :
    (∃ results, elements.mapM read = .ok results) ↔
      ∀ element ∈ elements, ∃ result, read element = .ok result := by
  induction elements with
  | nil => simp
  | cons element others ih =>
      simp only [List.mapM_cons, bind_eq_ok, List.forall_mem_cons, ← ih]
      constructor
      · intro done
        rcases done with ⟨_, first, readFirst, rest, readRest, _⟩
        exact ⟨⟨first, readFirst⟩, rest, readRest⟩
      · intro done
        rcases done with ⟨⟨first, readFirst⟩, rest, readRest⟩
        exact ⟨first :: rest, first, readFirst, rest, readRest, rfl⟩

/-- In related lists every element on the left has its partner on the right. -/
theorem exists_mem_of_forall₂ {relation : α → β → Prop} {elements : List α}
    {results : List β} {element : α} (related : List.Forall₂ relation elements results)
    (member : element ∈ elements) : ∃ result ∈ results, relation element result := by
  induction related with
  | nil => cases member
  | cons first others ih =>
      cases member with
      | head => exact ⟨_, List.mem_cons_self, first⟩
      | tail _ later =>
          rcases ih later with ⟨result, among, holds⟩
          exact ⟨result, List.mem_cons_of_mem _ among, holds⟩

theorem map_eq_of_forall₂ {γ : Type} {relation : α → β → Prop} {left : α → γ} {right : β → γ}
    {elements : List α} {results : List β} (related : List.Forall₂ relation elements results)
    (same : ∀ element result, relation element result → left element = right result) :
    elements.map left = results.map right := by
  induction related with
  | nil => rfl
  | cons first _ ih => rw [List.map_cons, List.map_cons, same _ _ first, ih]

theorem forall₂_of_map_eq {γ : Type} {left : α → γ} {right : β → γ} {elements : List α}
    {results : List β} (same : elements.map left = results.map right) :
    List.Forall₂ (fun element result => left element = right result) elements results := by
  have related : List.Forall₂ Eq (elements.map left) (results.map right) := by
    rw [same, List.forall₂_same]
    exact fun _ _ => rfl
  exact List.forall₂_map_right_iff.1 (List.forall₂_map_left_iff.1 related)

theorem exists_mem_of_mapM_eq_ok {read : α → Except ε β} {elements : List α}
    {results : List β} {result : β} (done : elements.mapM read = .ok results)
    (member : result ∈ results) : ∃ element ∈ elements, read element = .ok result :=
  exists_mem_of_forall₂ (mapM_eq_ok.1 done).flip member

/-- Reading the elements of a list fails exactly at the first element that cannot
be read. -/
theorem mapM_eq_error {read : α → Except ε β} {elements : List α} {fault : ε} :
    elements.mapM read = .error fault ↔
      ∃ before element after results, elements = before ++ element :: after ∧
        before.mapM read = .ok results ∧ read element = .error fault := by
  induction elements with
  | nil => simp
  | cons element others ih =>
      rw [List.mapM_cons, bind_eq_error]
      constructor
      · intro result
        rcases result with failed | ⟨value, readFirst, failed⟩
        · exact ⟨[], element, others, [], rfl, rfl, failed⟩
        · rcases bind_eq_error.1 failed with failed | ⟨values, _, impossible⟩
          · obtain ⟨before, next, after, results, rfl, readBefore, readNext⟩ := ih.1 failed
            refine ⟨element :: before, next, after, value :: results, rfl, ?_, readNext⟩
            rw [List.mapM_cons, readFirst, ok_bind, readBefore]
            rfl
          · cases impossible
      · intro result
        rcases result with ⟨before, next, after, results, equal, readBefore, readNext⟩
        cases before with
        | nil =>
            obtain ⟨rfl, rfl⟩ := List.cons.inj equal
            exact .inl readNext
        | cons first before =>
            obtain ⟨rfl, rfl⟩ := List.cons.inj equal
            rw [List.mapM_cons] at readBefore
            obtain ⟨value, readFirst, readRest⟩ := bind_eq_ok.1 readBefore
            obtain ⟨values, readRest, _⟩ := bind_eq_ok.1 readRest
            refine .inr ⟨value, readFirst, bind_eq_error.2 (.inl ?_)⟩
            exact ih.2 ⟨before, next, after, values, rfl, readRest, readNext⟩

/-- A pass over a list is good if its steps are, wherever what comes to a result is good, and
two good steps are good one after the other. -/
theorem closed_mapM {m : Type → Type} [Monad m] [LawfulMonad m] (good : {γ : Type} → m γ → Prop)
    (result : ∀ {γ : Type} (value : γ), good (pure value : m γ))
    (follow : ∀ {γ δ : Type} {first : m γ} {next : γ → m δ},
      good first → (∀ value, good (next value)) → good (first >>= next))
    {step : α → m β} {elements : List α} (each : ∀ element ∈ elements, good (step element)) :
    good (elements.mapM step) := by
  induction elements with
  | nil =>
      rw [List.mapM_nil]
      exact result []
  | cons element others ih =>
      obtain ⟨first, later⟩ := List.forall_mem_cons.1 each
      rw [List.mapM_cons]
      refine follow first fun value => follow (ih later) fun values => ?_
      exact result (value :: values)

/-- A pass over a list fails only as its steps do. -/
theorem failsOnly_mapM {allowed : ε → Prop} {read : α → Except ε β} {elements : List α}
    (each : ∀ element ∈ elements, FailsOnly allowed (read element)) :
    FailsOnly allowed (elements.mapM read) :=
  closed_mapM (FailsOnly allowed) failsOnly_ok failsOnly_bind each

/-! ## Folding a list -/

/-- A pass fails exactly at the first step that fails. -/
theorem foldlM_eq_error {step : β → α → Except ε β} {elements : List α} {start : β}
    {fault : ε} :
    elements.foldlM step start = .error fault ↔
      ∃ before element after state, elements = before ++ element :: after ∧
        before.foldlM step start = .ok state ∧ step state element = .error fault := by
  induction elements generalizing start with
  | nil => simp
  | cons element others ih =>
      rw [List.foldlM_cons, bind_eq_error]
      constructor
      · intro result
        rcases result with failed | ⟨next, stepped, failed⟩
        · exact ⟨[], element, others, start, rfl, rfl, failed⟩
        · obtain ⟨before, later, after, state, rfl, folded, failed⟩ := ih.1 failed
          refine ⟨element :: before, later, after, state, rfl, ?_, failed⟩
          rw [List.foldlM_cons, stepped, ok_bind, folded]
      · intro result
        rcases result with ⟨before, later, after, state, equal, folded, failed⟩
        cases before with
        | nil =>
            obtain ⟨rfl, rfl⟩ := List.cons.inj equal
            cases folded
            exact .inl failed
        | cons first before =>
            obtain ⟨rfl, rfl⟩ := List.cons.inj equal
            rw [List.foldlM_cons] at folded
            obtain ⟨next, stepped, folded⟩ := bind_eq_ok.1 folded
            exact .inr ⟨next, stepped, ih.2 ⟨before, later, after, state, rfl, folded, failed⟩⟩

theorem failsOnly_foldlM {allowed : ε → Prop} {step : β → α → Except ε β}
    {elements : List α} {start : β}
    (each : ∀ state, ∀ element ∈ elements, FailsOnly allowed (step state element)) :
    FailsOnly allowed (elements.foldlM step start) := by
  intro fault failed
  rcases foldlM_eq_error.1 failed with ⟨_, element, _, state, rfl, _, failed⟩
  exact each state element (by simp) fault failed

end ScoreSynth.Stepwise
