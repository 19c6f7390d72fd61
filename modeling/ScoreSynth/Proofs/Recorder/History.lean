import Mathlib.Data.List.Induction
import Mathlib.Data.List.Nodup
import ScoreSynth.Recorder.Operation

/-!
# Histories of recorders

A history is the operations that have been carried out on a recorder.  It says everything about
each sink: at which rate it was opened, what was written to it, whether it was drained, and
whether it is still open.
-/

namespace ScoreSynth.Recorder

namespace Operation

/-- The rate at which a sink is opened. -/
def rate? : Operation → Option Nat
  | opening rate => some rate
  | _ => none

/-- The sink that is worked on. -/
def sink? : Operation → Option Nat
  | opening _ => none
  | writing number _ | draining number | closing number => some number

/-- The sink that is closed. -/
def closed? : Operation → Option Nat
  | closing number => some number
  | _ => none

/-- What is written to a sink. -/
def samplesFor (number : Nat) : Operation → List Sample
  | writing other samples => if other = number then samples else []
  | _ => []

theorem sink?_eq_of_closed? {operation : Operation} {number : Nat}
    (closes : operation.closed? = some number) : operation.sink? = some number := by
  cases operation with
  | closing => exact closes
  | opening | writing | draining => cases closes

theorem rate?_eq_none_of_sink? {operation : Operation} {number : Nat}
    (works : operation.sink? = some number) : operation.rate? = none := by
  cases operation with
  | opening => cases works
  | writing | draining | closing => rfl

end Operation

/-- The rates of the sinks, in the order of their numbers. -/
def rates (history : List Operation) : List Nat :=
  history.filterMap Operation.rate?

/-- The sinks that are closed, in the order in which they are closed. -/
def closings (history : List Operation) : List Nat :=
  history.filterMap Operation.closed?

/-- What was sent to a sink: all that was written to it, and whether it was drained. -/
def recording? (history : List Operation) (number : Nat) : Option Recording :=
  (rates history)[number]?.map fun rate =>
    ⟨rate, history.flatMap (Operation.samplesFor number), decide (.draining number ∈ history)⟩

/-- Whether a sink has been opened and not closed. -/
def IsOpen (history : List Operation) (number : Nat) : Prop :=
  number < (rates history).length ∧ number ∉ closings history

instance (history : List Operation) (number : Nat) : Decidable (IsOpen history number) :=
  inferInstanceAs (Decidable (_ ∧ _))

/-- Whether an operation can be carried out behind a history. -/
def CanFollow (unavailable : List Nat) (history : List Operation) : Operation → Prop
  | .opening rate => rate ∉ unavailable
  | .writing number _ | .draining number | .closing number => IsOpen history number

instance (unavailable : List Nat) (history : List Operation) (operation : Operation) :
    Decidable (CanFollow unavailable history operation) :=
  match operation with
  | .opening rate => inferInstanceAs (Decidable (rate ∉ unavailable))
  | .writing number _ | .draining number | .closing number =>
      inferInstanceAs (Decidable (IsOpen history number))

/-- The history behind an operation. -/
def extend (unavailable : List Nat) (history : List Operation) (operation : Operation) :
    List Operation :=
  if CanFollow unavailable history operation then history ++ [operation] else history

/-- The history that some operations make. -/
def carriedOut (unavailable : List Nat) (operations : List Operation) : List Operation :=
  operations.foldl (extend unavailable) []

/-- Histories each of whose operations could be carried out behind the ones before it. -/
inductive Legal (unavailable : List Nat) : List Operation → Prop where
  | nil : Legal unavailable []
  | concat {history : List Operation} {operation : Operation} :
      Legal unavailable history → CanFollow unavailable history operation →
      Legal unavailable (history ++ [operation])

theorem rates_concat (history : List Operation) (operation : Operation) :
    rates (history ++ [operation]) = rates history ++ operation.rate?.toList := by
  rw [rates, List.filterMap_append]
  cases operation <;> rfl

theorem closings_concat (history : List Operation) (operation : Operation) :
    closings (history ++ [operation]) = closings history ++ operation.closed?.toList := by
  rw [closings, List.filterMap_append]
  cases operation <;> rfl

theorem isOpen_concat_iff {history : List Operation} {operation : Operation}
    (opens : operation.rate? = none) (closes : operation.closed? = none) (number : Nat) :
    IsOpen (history ++ [operation]) number ↔ IsOpen history number := by
  simp [IsOpen, rates_concat, closings_concat, opens, closes]

theorem isOpen_concat_closing_iff (history : List Operation) (closed number : Nat) :
    IsOpen (history ++ [.closing closed]) number ↔ IsOpen history number ∧ number ≠ closed := by
  simp [IsOpen, rates_concat, closings_concat, Operation.rate?, Operation.closed?, and_assoc]

section Legal

variable {unavailable : List Nat} {history : List Operation} {operation : Operation}

theorem CanFollow.isOpen (canFollow : CanFollow unavailable history operation) {number : Nat}
    (works : operation.sink? = some number) : IsOpen history number := by
  cases operation with
  | opening rate => simp [Operation.sink?] at works
  | writing other _ | draining other | closing other =>
      obtain rfl : other = number := by simpa [Operation.sink?] using works
      exact canFollow

theorem legal_concat_iff : Legal unavailable (history ++ [operation]) ↔
    Legal unavailable history ∧ CanFollow unavailable history operation := by
  refine ⟨fun legal => ?_, fun ⟨legal, canFollow⟩ => legal.concat canFollow⟩
  generalize eq : history ++ [operation] = whole at legal
  cases legal with
  | nil => simp at eq
  | concat legal canFollow =>
      obtain ⟨rfl, rfl⟩ : history = _ ∧ operation = _ := by simpa using List.append_inj' eq rfl
      exact ⟨legal, canFollow⟩

theorem Legal.extend (legal : Legal unavailable history) (operation : Operation) :
    Legal unavailable (extend unavailable history operation) := by
  unfold Recorder.extend
  split
  · exact legal.concat ‹_›
  · exact legal

/-- Only sinks that have been opened are worked on. -/
theorem Legal.lt_length_rates (legal : Legal unavailable history) {number : Nat}
    (mem : operation ∈ history) (works : operation.sink? = some number) :
    number < (rates history).length := by
  induction legal with
  | nil => simp at mem
  | @concat history last _ canFollow ih =>
      rw [rates_concat, List.length_append]
      rcases List.mem_append.1 mem with mem | mem
      · have := ih mem
        omega
      · obtain rfl := List.mem_singleton.1 mem
        have := (canFollow.isOpen works).1
        omega

theorem Legal.lt_length_rates_of_mem_closings (legal : Legal unavailable history) {number : Nat}
    (closed : number ∈ closings history) : number < (rates history).length := by
  obtain ⟨operation, mem, closes⟩ := List.mem_filterMap.1 closed
  exact legal.lt_length_rates mem (Operation.sink?_eq_of_closed? closes)

theorem isOpen_concat_opening_iff (legal : Legal unavailable history) (rate number : Nat) :
    IsOpen (history ++ [.opening rate]) number ↔
      number = (rates history).length ∨ IsOpen history number := by
  have fresh : (rates history).length ∉ closings history := fun closed =>
    absurd (legal.lt_length_rates_of_mem_closings closed) (Nat.lt_irrefl _)
  simp only [IsOpen, rates_concat, closings_concat, Operation.rate?, Operation.closed?,
    Option.toList_some, Option.toList_none, List.length_append, List.length_singleton,
    List.append_nil]
  grind

/-- No sink is closed twice. -/
theorem Legal.nodup_closings (legal : Legal unavailable history) : (closings history).Nodup := by
  induction legal with
  | nil => exact List.nodup_nil
  | @concat history last _ canFollow ih =>
      rw [closings_concat]
      cases last with
      | closing number =>
          rw [Operation.closed?, Option.toList_some, ← List.concat_eq_append]
          exact ih.concat canFollow.2
      | opening | writing | draining => simpa [Operation.closed?] using ih

/-- A sink that has been closed is closed for good. -/
theorem Legal.sink?_ne_of_closed {before after : List Operation} {number : Nat}
    (legal : Legal unavailable (before ++ .closing number :: after)) :
    ∀ operation ∈ after, operation.sink? ≠ some number := by
  induction after using List.reverseRecOn with
  | nil => simp
  | append_singleton after last ih =>
      rw [← List.cons_append, ← List.append_assoc, legal_concat_iff] at legal
      obtain ⟨legal, canFollow⟩ := legal
      intro operation mem works
      rcases List.mem_append.1 mem with mem | mem
      · exact ih legal operation mem works
      · obtain rfl := List.mem_singleton.1 mem
        refine (canFollow.isOpen works).2 ?_
        simp [closings, Operation.closed?]

end Legal

theorem run_concat (recorder : Recorder) (operations : List Operation) (operation : Operation) :
    recorder.run (operations ++ [operation]) =
      ((recorder.run operations).perform operation).2 := by
  simp [run]

theorem carriedOut_concat (unavailable : List Nat) (operations : List Operation)
    (operation : Operation) : carriedOut unavailable (operations ++ [operation]) =
      extend unavailable (carriedOut unavailable operations) operation := by
  simp [carriedOut]

theorem legal_carriedOut (unavailable : List Nat) (operations : List Operation) :
    Legal unavailable (carriedOut unavailable operations) := by
  induction operations using List.reverseRecOn with
  | nil => exact .nil
  | append_singleton operations operation ih =>
      rw [carriedOut_concat]
      exact ih.extend operation

/-! ## How recordings grow -/

/-- What an operation does to the recording of a sink. -/
def Operation.effect (number : Nat) : Operation → Recording → Recording
  | writing other samples, recording => if other = number then recording.write samples else recording
  | draining other, recording => if other = number then recording.drain else recording
  | _, recording => recording

theorem Operation.effect_of_sink?_ne {operation : Operation} {number : Nat}
    (other : operation.sink? ≠ some number) (recording : Recording) :
    operation.effect number recording = recording := by
  cases operation with
  | writing | draining => exact if_neg fun eq => other (congrArg some eq)
  | opening | closing => rfl

section recording

variable {unavailable : List Nat} {history : List Operation}

theorem recording?_concat {operation : Operation} (works : operation.rate? = none) (number : Nat) :
    recording? (history ++ [operation]) number =
      (recording? history number).map (operation.effect number) := by
  have rates_eq : rates (history ++ [operation]) = rates history := by simp [rates_concat, works]
  rw [recording?, recording?, rates_eq, Option.map_map]
  refine congrArg (Option.map · _) (funext fun rate => ?_)
  cases operation with
  | opening => simp [Operation.rate?] at works
  | writing other samples =>
      by_cases eq : other = number <;>
        simp [Operation.samplesFor, Operation.effect, Recording.write, eq]
  | draining other =>
      rcases eq_or_ne other number with rfl | ne
      · simp [Operation.samplesFor, Operation.effect, Recording.drain]
      · simp [Operation.samplesFor, Operation.effect, ne, ne.symm]
  | closing => simp [Operation.samplesFor, Operation.effect]

theorem recording?_concat_of_sink?_ne {operation : Operation} {number : Nat}
    (works : operation.rate? = none) (other : operation.sink? ≠ some number) :
    recording? (history ++ [operation]) number = recording? history number := by
  rw [recording?_concat works, funext (operation.effect_of_sink?_ne other), Option.map_id']

theorem recording?_concat_closing (history : List Operation) (closed number : Nat) :
    recording? (history ++ [.closing closed]) number = recording? history number := by
  rw [recording?_concat rfl]
  exact Option.map_id'

theorem recording?_concat_opening (legal : Legal unavailable history) (rate number : Nat) :
    recording? (history ++ [.opening rate]) number =
      if number = (rates history).length then some (.opened rate)
      else recording? history number := by
  have samples_eq : (history ++ [Operation.opening rate]).flatMap (Operation.samplesFor number) =
      history.flatMap (Operation.samplesFor number) := by
    simp [Operation.samplesFor]
  have drained_iff : .draining number ∈ history ++ [.opening rate] ↔
      .draining number ∈ history := by
    simp
  rw [recording?, rates_concat, samples_eq, decide_eq_decide.2 drained_iff, Operation.rate?,
    Option.toList_some]
  rcases Nat.lt_trichotomy number (rates history).length with lt | rfl | gt
  · rw [if_neg (by omega), List.getElem?_append_left lt, recording?]
  · -- No operation has worked on a sink with this number before.
    have absent (operation : Operation) (mem : operation ∈ history) :
        operation.sink? ≠ some (rates history).length := fun works =>
      Nat.lt_irrefl _ (legal.lt_length_rates mem works)
    have undrained : .draining (rates history).length ∉ history := fun mem => absent _ mem rfl
    have unwritten : history.flatMap (Operation.samplesFor (rates history).length) = [] := by
      refine List.flatMap_eq_nil_iff.2 fun operation mem => ?_
      cases operation with
      | writing other samples => exact if_neg fun eq => absent _ mem (congrArg some eq)
      | opening | draining | closing => rfl
    simp [unwritten, undrained, Recording.opened]
  · rw [if_neg (by omega), List.getElem?_eq_none (by simp; omega), recording?,
      List.getElem?_eq_none (by omega)]

/-- What is done with other sinks does not matter to a sink that is there already. -/
theorem Legal.recording?_concat_of_sink?_ne (legal : Legal unavailable history)
    {operation : Operation} {number : Nat} (lt : number < (rates history).length)
    (other : operation.sink? ≠ some number) :
    recording? (history ++ [operation]) number = recording? history number := by
  cases operation with
  | opening rate => rw [recording?_concat_opening legal, if_neg (by omega)]
  | writing | draining | closing => exact Recorder.recording?_concat_of_sink?_ne rfl other

/-- Nothing adds to a sink that has been closed. -/
theorem Legal.recording?_of_closed {before after : List Operation} {number : Nat}
    (legal : Legal unavailable (before ++ .closing number :: after)) :
    recording? (before ++ .closing number :: after) number = recording? before number := by
  induction after using List.reverseRecOn with
  | nil => exact recording?_concat_closing before number number
  | append_singleton after last ih =>
      have untouched := legal.sink?_ne_of_closed last (by simp)
      rw [← List.cons_append, ← List.append_assoc, legal_concat_iff] at legal
      obtain ⟨legal, -⟩ := legal
      have closed : Operation.closing number ∈ before ++ .closing number :: after := by simp
      rw [← List.cons_append, ← List.append_assoc,
        legal.recording?_concat_of_sink?_ne (legal.lt_length_rates closed rfl) untouched, ih legal]

end recording

end ScoreSynth.Recorder
