import ScoreSynth.Proofs.Rendering.Safety

/-!
# Steps that hand on a tape

Each step of rendering takes the tape over from the step before it.  The words on the tape
decide what the samples are, and not whether there are any: every step either succeeds on
all tapes, or fails on all of them with one fault (`Synthesis.Steady`).
-/

namespace ScoreSynth.Synthesis

variable {α β : Type}

/-! ## Steps that have succeeded -/

/-- A step that does not look at the tape leaves it as it is. -/
theorem run_liftExcept_eq_ok {work : Except Fault α} {value : α} {tape rest : RandomTape} :
    (liftM work : Synthesis α).run tape = (.ok value, rest) ↔
      work = .ok value ∧ tape = rest := by
  constructor
  · intro done
    exact ⟨congrArg Prod.fst done, congrArg Prod.snd done⟩
  · intro done
    obtain ⟨rfl, rfl⟩ := done
    rfl

theorem run_pure_eq_ok {result value : α} {tape rest : RandomTape} :
    (pure result : Synthesis α).run tape = (.ok value, rest) ↔ result = value ∧ tape = rest := by
  constructor
  · intro done
    cases done
    exact ⟨rfl, rfl⟩
  · intro done
    obtain ⟨rfl, rfl⟩ := done
    rfl

theorem run_bind_eq_ok {first : Synthesis α} {next : α → Synthesis β} {result : β}
    {tape rest : RandomTape} :
    (first >>= next).run tape = (.ok result, rest) ↔
      ∃ value between, first.run tape = (.ok value, between) ∧
        (next value).run between = (.ok result, rest) := by
  rw [run_bind]
  constructor
  · intro done
    cases began : first.run tape with
    | mk outcome between =>
        rw [began] at done
        cases outcome with
        | error fault => cases done
        | ok value => exact ⟨value, between, rfl, done⟩
  · intro done
    obtain ⟨value, between, began, followed⟩ := done
    rw [began]
    exact followed

/-- Some elements have been played one after the other, each on the tape that the one before
it left. -/
inductive Performs (plays : α → RandomTape → β → RandomTape → Prop) :
    RandomTape → List α → List β → RandomTape → Prop
  | nil (tape : RandomTape) : Performs plays tape [] [] tape
  | cons {tape between rest : RandomTape} {element : α} {others : List α} {result : β}
      {results : List β} :
      plays element tape result between → Performs plays between others results rest →
      Performs plays tape (element :: others) (result :: results) rest

/-- A step plays an element if it succeeds. -/
def Yields (step : α → Synthesis β) (element : α) (tape : RandomTape) (result : β)
    (rest : RandomTape) : Prop :=
  (step element).run tape = (.ok result, rest)

theorem run_mapM_eq_ok {step : α → Synthesis β} {elements : List α} {results : List β}
    {tape rest : RandomTape} :
    (elements.mapM step).run tape = (.ok results, rest) ↔
      Performs (Yields step) tape elements results rest := by
  induction elements generalizing results tape with
  | nil =>
      rw [List.mapM_nil, run_pure_eq_ok]
      constructor
      · intro played
        obtain ⟨rfl, rfl⟩ := played
        exact .nil _
      · intro played
        cases played
        exact ⟨rfl, rfl⟩
  | cons element others ih =>
      simp only [List.mapM_cons, run_bind_eq_ok, run_pure_eq_ok]
      constructor
      · intro played
        obtain ⟨result, between, first, following, last, later, rfl, rfl⟩ := played
        exact .cons first (ih.1 later)
      · intro played
        cases played with
        | cons first later => exact ⟨_, _, first, _, _, ih.2 later, rfl, rfl⟩

namespace Performs

variable {plays : α → RandomTape → β → RandomTape → Prop} {tape rest : RandomTape}
variable {elements : List α} {results : List β}

theorem imp {allowed : α → RandomTape → β → RandomTape → Prop}
    (implies : ∀ element before result after,
      plays element before result after → allowed element before result after)
    (performed : Performs plays tape elements results rest) :
    Performs allowed tape elements results rest := by
  induction performed with
  | nil tape => exact .nil tape
  | cons first _ ih => exact .cons (implies _ _ _ _ first) ih

/-- Every element has had its turn between those before it and those behind it. -/
theorem split {earlier later : List α} {element : α}
    (performed : Performs plays tape (earlier ++ element :: later) results rest) :
    ∃ before result after middle next, results = before ++ result :: after ∧
      Performs plays tape earlier before middle ∧ plays element middle result next ∧
      Performs plays next later after rest := by
  induction earlier generalizing tape results with
  | nil =>
      cases performed with
      | cons first others => exact ⟨[], _, _, _, _, rfl, .nil _, first, others⟩
  | cons first earlier ih =>
      cases performed with
      | cons played others =>
          obtain ⟨before, result, after, middle, next, rfl, front, turn, back⟩ := ih others
          exact ⟨_ :: before, result, after, middle, next, rfl, .cons played front, turn, back⟩

end Performs

/-! ## Steps that come out the same way on every tape -/

/-- Whether a step succeeds, whatever the tape. -/
def Succeeds (work : Synthesis α) : Prop :=
  ∀ tape, ∃ value, (work.run tape).1 = .ok value

/-- Whether a step fails with one fault, whatever the tape. -/
def FailsWith (work : Synthesis α) (fault : Fault) : Prop :=
  ∀ tape, (work.run tape).1 = .error fault

/-- Whether the tape does not decide on success. -/
def Steady (work : Synthesis α) : Prop :=
  work.Succeeds ∨ ∃ fault, work.FailsWith fault

theorem succeeds_pure (value : α) : (pure value : Synthesis α).Succeeds :=
  fun _ => ⟨value, rfl⟩

theorem succeeds_liftState (work : StateM RandomTape α) :
    (liftM work : Synthesis α).Succeeds :=
  fun tape => ⟨(work.run tape).1, rfl⟩

theorem failsWith_throw (fault : Fault) : (throw fault : Synthesis α).FailsWith fault :=
  fun _ => rfl

/-- Behind a step that succeeds, the second one decides. -/
theorem Succeeds.run_bind {first : Synthesis α} (before : first.Succeeds)
    (next : α → Synthesis β) (tape : RandomTape) :
    ∃ value rest, (first >>= next).run tape = (next value).run rest := by
  obtain ⟨value, done⟩ := before tape
  rw [Synthesis.run_bind]
  cases result : first.run tape with
  | mk outcome rest =>
      rw [result] at done
      cases done
      exact ⟨value, rest, rfl⟩

theorem Succeeds.bind {first : Synthesis α} {next : α → Synthesis β}
    (before : first.Succeeds) (after : ∀ value, (next value).Succeeds) :
    (first >>= next).Succeeds := by
  intro tape
  obtain ⟨value, rest, same⟩ := before.run_bind next tape
  rw [same]
  exact after value rest

theorem Succeeds.bind_fails {first : Synthesis α} {next : α → Synthesis β} {fault : Fault}
    (before : first.Succeeds) (failed : ∀ value, (next value).FailsWith fault) :
    (first >>= next).FailsWith fault := by
  intro tape
  obtain ⟨value, rest, same⟩ := before.run_bind next tape
  rw [same]
  exact failed value rest

theorem FailsWith.bind {first : Synthesis α} {fault : Fault} (failed : first.FailsWith fault)
    (next : α → Synthesis β) : (first >>= next).FailsWith fault := by
  intro tape
  have stopped := failed tape
  rw [run_bind]
  cases result : first.run tape with
  | mk outcome rest =>
      rw [result] at stopped
      cases stopped
      rfl

/-- A step that does not look at the tape. -/
theorem steady_bind_liftExcept {work : Except Fault α} {next : α → Synthesis β}
    (after : ∀ value, work = .ok value → (next value).Steady) :
    ((liftM work : Synthesis α) >>= next).Steady := by
  cases work with
  | error fault => exact .inr ⟨fault, FailsWith.bind (fun _ => rfl) next⟩
  | ok value => exact after value rfl

theorem steady_liftExcept (work : Except Fault α) : (liftM work : Synthesis α).Steady := by
  cases work with
  | error fault => exact .inr ⟨fault, fun _ => rfl⟩
  | ok value => exact .inl fun _ => ⟨value, rfl⟩

theorem Steady.bind_succeeds {first : Synthesis α} {next : α → Synthesis β}
    (before : first.Steady) (after : ∀ value, (next value).Succeeds) :
    (first >>= next).Steady := by
  cases before with
  | inl done => exact .inl (done.bind after)
  | inr stopped =>
      obtain ⟨fault, failed⟩ := stopped
      exact .inr ⟨fault, failed.bind next⟩

/-! ## Steady steps one after the other -/

variable {step : α → Synthesis β}

theorem succeeds_mapM {elements : List α} (each : ∀ element ∈ elements, (step element).Succeeds) :
    (elements.mapM step).Succeeds :=
  Stepwise.closed_mapM Succeeds succeeds_pure Succeeds.bind each

theorem failsWith_mapM {earlier later : List α} {element : α} {fault : Fault}
    (each : ∀ other ∈ earlier, (step other).Succeeds) (failed : (step element).FailsWith fault) :
    ((earlier ++ element :: later).mapM step).FailsWith fault := by
  induction earlier with
  | nil =>
      rw [List.nil_append, List.mapM_cons]
      exact failed.bind _
  | cons first earlier ih =>
      obtain ⟨done, others⟩ := List.forall_mem_cons.1 each
      rw [List.cons_append, List.mapM_cons]
      exact done.bind_fails fun result => (ih others).bind _

/-- Of steady steps all succeed, or there is a first one that fails. -/
theorem forall_succeeds_or_exists {elements : List α}
    (steady : ∀ element ∈ elements, (step element).Steady) :
    (∀ element ∈ elements, (step element).Succeeds) ∨
      ∃ earlier element later fault, elements = earlier ++ element :: later ∧
        (∀ other ∈ earlier, (step other).Succeeds) ∧ (step element).FailsWith fault := by
  induction elements with
  | nil => exact .inl (List.forall_mem_nil _)
  | cons element others ih =>
      obtain ⟨first, later⟩ := List.forall_mem_cons.1 steady
      cases first with
      | inr stopped =>
          obtain ⟨fault, failed⟩ := stopped
          exact .inr ⟨[], element, others, fault, rfl, List.forall_mem_nil _, failed⟩
      | inl done =>
          cases ih later with
          | inl all => exact .inl (List.forall_mem_cons.2 ⟨done, all⟩)
          | inr stopped =>
              obtain ⟨earlier, next, behind, fault, rfl, before, failed⟩ := stopped
              exact .inr ⟨element :: earlier, next, behind, fault, rfl,
                List.forall_mem_cons.2 ⟨done, before⟩, failed⟩

theorem steady_mapM {elements : List α}
    (steady : ∀ element ∈ elements, (step element).Steady) : (elements.mapM step).Steady := by
  cases forall_succeeds_or_exists steady with
  | inl all => exact .inl (succeeds_mapM all)
  | inr stopped =>
      obtain ⟨earlier, element, later, fault, rfl, before, failed⟩ := stopped
      exact .inr ⟨fault, failsWith_mapM before failed⟩

/-- Steady steps succeed together exactly when each of them does. -/
theorem mapM_succeeds_iff {elements : List α}
    (steady : ∀ element ∈ elements, (step element).Steady) (tape : RandomTape) :
    (∃ results, ((elements.mapM step).run tape).1 = .ok results) ↔
      ∀ element ∈ elements, (step element).Succeeds := by
  constructor
  · intro done
    obtain ⟨results, done⟩ := done
    cases forall_succeeds_or_exists steady with
    | inl all => exact all
    | inr stopped =>
        obtain ⟨earlier, element, later, fault, rfl, before, failed⟩ := stopped
        rw [failsWith_mapM before failed tape] at done
        cases done
  · intro all
    exact succeeds_mapM all tape

/-- Steady steps fail together exactly when one of them does and those before it succeed, and
then with its fault. -/
theorem mapM_fails_iff {elements : List α}
    (steady : ∀ element ∈ elements, (step element).Steady) (tape : RandomTape) (fault : Fault) :
    ((elements.mapM step).run tape).1 = .error fault ↔
      ∃ earlier element later, elements = earlier ++ element :: later ∧
        (∀ other ∈ earlier, (step other).Succeeds) ∧ (step element).FailsWith fault := by
  constructor
  · intro stopped
    cases forall_succeeds_or_exists steady with
    | inl all =>
        obtain ⟨results, done⟩ := succeeds_mapM all tape
        rw [stopped] at done
        cases done
    | inr first =>
        obtain ⟨earlier, element, later, other, rfl, before, failed⟩ := first
        rw [failsWith_mapM before failed tape] at stopped
        cases stopped
        exact ⟨earlier, element, later, rfl, before, failed⟩
  · intro stopped
    obtain ⟨earlier, element, later, rfl, before, failed⟩ := stopped
    exact failsWith_mapM before failed tape

end ScoreSynth.Synthesis
