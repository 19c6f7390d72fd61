import Mathlib.Data.List.TakeWhile
import ScoreSynth.Runs

/-!
# Sequences up to a mark

What stands before the first mark of a sequence is cut off as it was written, and so
is what begins with the mark.  The marks of a sequence that has been cut are marks, and
no run holds one (`WellCut`).
-/

namespace ScoreSynth.Runs

variable {α : Type} {isMark : α → Bool}

theorem cut_cons_of_mark {mark : α} (marked : isMark mark = true) (others : List α) :
    cut isMark (mark :: others) =
      ⟨[], (mark, (cut isMark others).first) :: (cut isMark others).later⟩ := by
  rw [cut_cons, extend, if_pos marked]

theorem cut_cons_of_plain {element : α} (plain : isMark element = false) (others : List α) :
    cut isMark (element :: others) =
      ⟨element :: (cut isMark others).first, (cut isMark others).later⟩ := by
  rw [cut_cons, extend, if_neg (Bool.eq_false_iff.1 plain)]

/-- Elements in front that are no marks make the first run longer. -/
theorem cut_append {before : List α} (plain : ∀ element ∈ before, isMark element = false)
    (after : List α) :
    cut isMark (before ++ after) =
      ⟨before ++ (cut isMark after).first, (cut isMark after).later⟩ := by
  induction before with
  | nil => rfl
  | cons element others ih =>
      rcases List.forall_mem_cons.1 plain with ⟨unmarked, othersPlain⟩
      rw [List.cons_append, cut_cons_of_plain unmarked, ih othersPlain]
      rfl

/-! ## Marks and runs -/

/-- Whether the marks are marks, and no run holds one. -/
structure WellCut (isMark : α → Bool) (runs : Runs α) : Prop where
  first_plain : ∀ element ∈ runs.first, isMark element = false
  isMark_mark : ∀ piece ∈ runs.later, isMark piece.1 = true
  run_plain : ∀ piece ∈ runs.later, ∀ element ∈ piece.2, isMark element = false

theorem wellCut_cut (isMark : α → Bool) (sequence : List α) :
    WellCut isMark (cut isMark sequence) := by
  induction sequence with
  | nil => constructor <;> simp
  | cons element others ih =>
      by_cases marked : isMark element = true
      · rw [cut_cons_of_mark marked]
        constructor
        · exact List.forall_mem_nil _
        · exact List.forall_mem_cons.2 ⟨marked, ih.isMark_mark⟩
        · exact List.forall_mem_cons.2 ⟨ih.first_plain, ih.run_plain⟩
      · have plain : isMark element = false := Bool.eq_false_iff.2 marked
        rw [cut_cons_of_plain plain]
        constructor
        · exact List.forall_mem_cons.2 ⟨plain, ih.first_plain⟩
        · exact ih.isMark_mark
        · exact ih.run_plain

/-! ## The first mark -/

/-- A sequence whose first mark is known is cut at a mark.  Then it is cut at that first
mark, or somewhere behind it. -/
theorem eq_or_exists_of_append_cons_eq {before after left right : List α} {mark other : α}
    (plain : ∀ element ∈ before, isMark element = false) (marked : isMark other = true)
    (same : before ++ mark :: after = left ++ other :: right) :
    (left = before ∧ other = mark ∧ right = after) ∨
      ∃ between, left = before ++ mark :: between ∧ after = between ++ other :: right := by
  induction before generalizing left with
  | nil =>
      cases left with
      | nil =>
          rcases List.cons.inj same with ⟨rfl, rfl⟩
          exact .inl ⟨rfl, rfl, rfl⟩
      | cons first between =>
          rcases List.cons.inj same with ⟨rfl, rfl⟩
          exact .inr ⟨between, rfl, rfl⟩
  | cons element others ih =>
      rcases List.forall_mem_cons.1 plain with ⟨unmarked, othersPlain⟩
      cases left with
      | nil =>
          rcases List.cons.inj same with ⟨rfl, _⟩
          rw [unmarked] at marked
          cases marked
      | cons first left =>
          rcases List.cons.inj same with ⟨rfl, rest⟩
          rcases ih othersPlain rest with ⟨rfl, rfl, rfl⟩ | ⟨between, rfl, rfl⟩
          · exact .inl ⟨rfl, rfl, rfl⟩
          · exact .inr ⟨between, rfl, rfl⟩

/-- The first mark stands behind the elements that are none. -/
theorem findIdx?_append_cons {before : List α} {mark : α}
    (plain : ∀ element ∈ before, isMark element = false) (marked : isMark mark = true)
    (after : List α) : (before ++ mark :: after).findIdx? isMark = some before.length := by
  rw [List.findIdx?_append, List.findIdx?_eq_none_iff.2 plain, List.findIdx?_cons, if_pos marked]
  simp

variable {keep : α → Bool} {before : List α} {mark : α}

/-- What a sequence begins with ends before a given element, or reaches beyond it. -/
theorem prefix_append_cons {part after : List α} (begins : part <+: before ++ mark :: after) :
    part <+: before ∨ ∃ more, more <+: after ∧ part = before ++ mark :: more := by
  rcases List.prefix_or_prefix_of_prefix begins (List.prefix_append before _) with
    short | ⟨tail, rfl⟩
  · exact .inl short
  · rcases List.prefix_cons_iff.1 ((List.prefix_append_right_inj before).1 begins) with
      rfl | ⟨more, rfl, within⟩
    · exact .inl (by simp)
    · exact .inr ⟨more, within, rfl⟩

/-- What stands before the first element that is not kept. -/
theorem takeWhile_append_cons (kept : ∀ element ∈ before, keep element = true)
    (dropped : keep mark = false) (after : List α) :
    (before ++ mark :: after).takeWhile keep = before := by
  rw [List.takeWhile_append_of_pos kept, List.takeWhile_cons_of_neg (by simp [dropped])]
  exact List.append_nil before

theorem dropWhile_append_cons (kept : ∀ element ∈ before, keep element = true)
    (dropped : keep mark = false) (after : List α) :
    (before ++ mark :: after).dropWhile keep = mark :: after := by
  rw [List.dropWhile_append_of_pos kept, List.dropWhile_cons_of_neg (by simp [dropped])]

/-- A sequence of which something is dropped, split at the first element that is not
kept. -/
theorem eq_append_cons_of_dropWhile {sequence after : List α}
    (dropped : sequence.dropWhile keep = mark :: after) :
    sequence = sequence.takeWhile keep ++ mark :: after ∧
      (∀ element ∈ sequence.takeWhile keep, keep element = true) ∧ keep mark = false := by
  have whole : sequence.takeWhile keep ++ sequence.dropWhile keep = sequence :=
    List.takeWhile_append_dropWhile
  rw [dropped] at whole
  refine ⟨whole.symm, fun element member => List.mem_takeWhile_imp member, ?_⟩
  have first := List.head?_dropWhile_not keep sequence
  rw [dropped] at first
  exact first

end ScoreSynth.Runs
