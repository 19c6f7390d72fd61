import ScoreSynth.Decimal.Shortest
import ScoreSynth.Proofs.Text.Numeral

/-!
# The characters of numbers

However a fraction is set out, its text has digits, a sign, a point and a power of ten and
nothing else.  It always has the point or the power, so it is never taken for a whole number
(`Decimal.Layout.signed?_of_text?`).
-/

namespace ScoreSynth

/-- Whether a character stands in numbers. -/
def Decimal.IsNumeral (character : Char) : Prop :=
  character.isDigit = true ∨ character ∈ ['.', 'e', '-']

namespace Numeral

open Decimal

theorem isNumeral_of_mem_ofNat {number : Nat} {character : Char}
    (member : character ∈ ofNat number) : IsNumeral character :=
  .inl (isDigit_of_mem_ofNat member)

theorem isNumeral_of_mem_ofInt {number : Int} {character : Char}
    (member : character ∈ ofInt number) : IsNumeral character := by
  cases number with
  | ofNat magnitude => exact isNumeral_of_mem_ofNat member
  | negSucc less =>
      cases member with
      | head => exact .inr (by decide)
      | tail _ later => exact isNumeral_of_mem_ofNat later

theorem ofInt_ne_nil (number : Int) : ofInt number ≠ [] := by
  cases number with
  | ofNat magnitude => exact ofNat_ne_nil magnitude
  | negSucc less => exact List.cons_ne_nil _ _

end Numeral

namespace Decimal.Layout

variable {layout : Layout} {number : Scaled} {character : Char}

theorem isNumeral_of_mem_write (member : character ∈ layout.write number) :
    IsNumeral character := by
  have zero : IsNumeral '0' := .inl rfl
  have point : IsNumeral '.' := .inr (by decide)
  have power : IsNumeral 'e' := .inr (by decide)
  have digit (inside : character ∈ Numeral.ofNat number.digits) : IsNumeral character :=
    Numeral.isNumeral_of_mem_ofNat inside
  simp only [write] at member
  split at member
  · simp only [List.mem_append, List.mem_cons] at member
    obtain (front | fraction) | rfl | exponent := member
    · exact digit (List.mem_of_mem_take front)
    · split at fraction
      · cases fraction
      · obtain rfl | behind := List.mem_cons.1 fraction
        · exact point
        · exact digit (List.mem_of_mem_tail behind)
    · exact power
    · exact Numeral.isNumeral_of_mem_ofInt exponent
  split at member
  · simp only [List.mem_append, List.mem_cons, List.not_mem_nil, or_false,
      List.mem_replicate] at member
    obtain ((rfl | rfl) | ⟨_, rfl⟩) | inside := member
    · exact zero
    · exact point
    · exact zero
    · exact digit inside
  split at member
  · simp only [List.mem_append, List.mem_cons, List.not_mem_nil, or_false,
      List.mem_replicate] at member
    obtain (inside | ⟨_, rfl⟩) | rfl | rfl := member
    · exact digit inside
    · exact zero
    · exact point
    · exact zero
  · obtain front | back := List.mem_append.1 member
    · exact digit (List.mem_of_mem_take front)
    · obtain rfl | behind := List.mem_cons.1 back
      · exact point
      · exact digit (List.mem_of_mem_drop behind)

/-- A fraction is known by its point or by its power. -/
theorem exists_mem_write (layout : Layout) (number : Scaled) :
    '.' ∈ layout.write number ∨ 'e' ∈ layout.write number := by
  simp only [write]
  split
  · exact .inr (by simp)
  split
  · exact .inl (by simp)
  split
  · exact .inl (by simp)
  · exact .inl (by simp)

theorem isNumeral_signed {magnitude : List Char}
    (each : ∀ character ∈ magnitude, IsNumeral character)
    (sign : Float.Model.UnpackedFloat.Sign) :
    ∀ character ∈ signed sign magnitude, IsNumeral character := by
  cases sign with
  | positive => exact each
  | negative => exact List.forall_mem_cons.2 ⟨.inr (by decide), each⟩

theorem subset_signed (sign : Float.Model.UnpackedFloat.Sign) (magnitude : List Char) :
    magnitude ⊆ signed sign magnitude := by
  cases sign with
  | positive => exact List.Subset.refl magnitude
  | negative => exact List.subset_cons_self '-' magnitude

section

variable {value : Float} {text : List Char} (written : layout.text? value = some text)

include written

theorem isNumeral_of_text? : ∀ character ∈ text, IsNumeral character := by
  rw [text?] at written
  split at written
  · cases written
  · cases written
  · next sign _ =>
      cases written
      refine isNumeral_signed (fun character member => ?_) sign
      simp only [List.mem_cons, List.not_mem_nil, or_false] at member
      obtain rfl | rfl | rfl := member
      · exact .inl rfl
      · exact .inr (by decide)
      · exact .inl rfl
  · next sign _ _ _ _ =>
      cases written
      exact isNumeral_signed (fun _ => isNumeral_of_mem_write) sign

theorem exists_mem_of_text? : '.' ∈ text ∨ 'e' ∈ text := by
  rw [text?] at written
  split at written
  · cases written
  · cases written
  · next sign _ =>
      cases written
      exact .inl (subset_signed sign _ (by decide))
  · next sign _ _ _ _ =>
      cases written
      exact (exists_mem_write layout _).imp (subset_signed sign _ ·) (subset_signed sign _ ·)

theorem ne_nil_of_text? : text ≠ [] :=
  (exists_mem_of_text? written).elim List.ne_nil_of_mem List.ne_nil_of_mem

/-- The text of a fraction is not read as a whole number. -/
theorem signed?_of_text? : Numeral.signed? text = none :=
  (exists_mem_of_text? written).elim (Numeral.signed?_eq_none · rfl (by decide))
    (Numeral.signed?_eq_none · rfl (by decide))

end

end Decimal.Layout

end ScoreSynth
