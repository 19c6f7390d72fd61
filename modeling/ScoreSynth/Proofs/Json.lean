import Mathlib.Data.List.Forall2
import ScoreSynth.Json.Reader
import ScoreSynth.Proofs.Decimal.Shortest

/-!
# Written values are read back

What is written is taken apart into the parts that it was put together from, however it is laid
out (`Scans`), and these parts are read as the value (`Puts`).  All of the value comes back but
its fractions: which digits stand for a fraction, and how exactly they are read, is left open
(`read?_compact`, `read?_pretty`).
-/

namespace ScoreSynth.Json

/-! ## What comes back -/

mutual

/-- The same value without its fractions. -/
def withoutFractions : Json → Json
  | null => null
  | whole number => whole number
  | fraction _ => null
  | name text => name text
  | list items => list (itemsWithoutFractions items)
  | record fields => record (fieldsWithoutFractions fields)

/-- The same items without their fractions. -/
def itemsWithoutFractions : List Json → List Json
  | [] => []
  | item :: others => item.withoutFractions :: itemsWithoutFractions others

/-- The same fields without their fractions. -/
def fieldsWithoutFractions : List (String × Json) → List (String × Json)
  | [] => []
  | (key, value) :: others => (key, value.withoutFractions) :: fieldsWithoutFractions others

end

theorem itemsWithoutFractions_eq_map (items : List Json) :
    itemsWithoutFractions items = items.map withoutFractions := by
  induction items with
  | nil => rfl
  | cons item others ih => rw [itemsWithoutFractions, ih, List.map_cons]

/-- A field without its fractions. -/
def fieldWithoutFractions (field : String × Json) : String × Json :=
  (field.1, field.2.withoutFractions)

theorem fieldsWithoutFractions_eq_map (fields : List (String × Json)) :
    fieldsWithoutFractions fields = fields.map fieldWithoutFractions := by
  induction fields with
  | nil => rfl
  | cons field others ih => rw [fieldsWithoutFractions, ih, List.map_cons, fieldWithoutFractions]

/-- What comes back of a whole number. -/
theorem eq_whole {other : Json} {number : Int}
    (same : other.withoutFractions = (whole number).withoutFractions) : other = whole number := by
  cases other with
  | whole _ => exact same
  | _ => cases same

/-- What comes back of a list. -/
theorem exists_eq_list {other : Json} {items : List Json}
    (same : other.withoutFractions = (list items).withoutFractions) :
    ∃ others, other = list others ∧
      others.map withoutFractions = items.map withoutFractions := by
  cases other with
  | list others =>
      refine ⟨others, rfl, ?_⟩
      rw [← itemsWithoutFractions_eq_map, ← itemsWithoutFractions_eq_map]
      exact list.inj same
  | _ => cases same

/-- What comes back of a record. -/
theorem exists_eq_record {other : Json} {fields : List (String × Json)}
    (same : other.withoutFractions = (record fields).withoutFractions) :
    ∃ others, other = record others ∧
      others.map fieldWithoutFractions = fields.map fieldWithoutFractions := by
  cases other with
  | record others =>
      refine ⟨others, rfl, ?_⟩
      rw [← fieldsWithoutFractions_eq_map, ← fieldsWithoutFractions_eq_map]
      exact record.inj same
  | _ => cases same

theorem lookup_map_fieldWithoutFractions (fields : List (String × Json)) (key : String) :
    (fields.map fieldWithoutFractions).lookup key = (fields.lookup key).map withoutFractions := by
  induction fields with
  | nil => rfl
  | cons field others ih =>
      rw [List.map_cons, fieldWithoutFractions, List.lookup_cons, List.lookup_cons, ih]
      split <;> rfl

/-- What comes back of a field. -/
theorem exists_lookup {fields others : List (String × Json)} {key : String} {value : Json}
    (same : others.map fieldWithoutFractions = fields.map fieldWithoutFractions)
    (found : fields.lookup key = some value) :
    ∃ other, others.lookup key = some other ∧
      other.withoutFractions = value.withoutFractions := by
  have alike := congrArg (List.lookup key) same
  rw [lookup_map_fieldWithoutFractions, lookup_map_fieldWithoutFractions, found] at alike
  exact Option.map_eq_some_iff.1 alike

theorem lookup_whole {fields others : List (String × Json)} {key : String} {number : Int}
    (same : others.map fieldWithoutFractions = fields.map fieldWithoutFractions)
    (found : fields.lookup key = some (.whole number)) :
    others.lookup key = some (.whole number) := by
  obtain ⟨other, there, alike⟩ := exists_lookup same found
  rwa [← eq_whole alike]

/-- Whether a name has only letters and underscores, which need no escapes. -/
def IsName (text : String) : Prop :=
  ∀ character ∈ text.toList, character.isAlpha = true ∨ character = '_'

instance (text : String) : Decidable (IsName text) :=
  decidable_of_iff
    (text.toList.all (fun character => character.isAlpha || character = '_') = true)
    (by simp [IsName])

/-- Whether all names in a value need no escapes. -/
inductive Plain : Json → Prop
  | null : Plain null
  | whole (number : Int) : Plain (whole number)
  | fraction (value : Float) : Plain (fraction value)
  | name {text : String} (plain : IsName text) : Plain (name text)
  | list {items : List Json} (each : ∀ item ∈ items, Plain item) : Plain (list items)
  | record {fields : List (String × Json)} (keys : ∀ field ∈ fields, IsName field.1)
      (values : ∀ field ∈ fields, Plain field.2) : Plain (record fields)

/-! ## Taking text apart -/

/-- Whether a character is part of a word. -/
def IsOfWord (character : Char) : Prop :=
  character ≠ '"' ∧ isMark character = false ∧ isSeparator character = false

instance (character : Char) : Decidable (IsOfWord character) :=
  inferInstanceAs (Decidable (_ ∧ _))

/-- Whether a text is one word. -/
def IsWord (text : List Char) : Prop :=
  text ≠ [] ∧ ∀ character ∈ text, IsOfWord character

instance (text : List Char) : Decidable (IsWord text) :=
  decidable_of_iff (text ≠ [] ∧ text.all (fun character => IsOfWord character) = true)
    (by simp [IsWord])

/-- Whether no word goes on into a text. -/
def Breaks (text : List Char) : Prop :=
  ∀ character ∈ text.head?, ¬ IsOfWord character

/-- Whether a text is taken apart into some parts, whatever follows it that is not part of its
last word. -/
def Scans (text : List Char) (read : List Part) : Prop :=
  ∀ rest, Breaks rest → parts [] (text ++ rest) = read ++ parts [] rest

theorem isOfWord_of_isNumeral {character : Char} (numeral : Decimal.IsNumeral character) :
    IsOfWord character := by
  obtain digit | other := numeral
  · have bounds : 48 ≤ character.toNat ∧ character.toNat ≤ 57 := Char.isDigit_iff_toNat.1 digit
    have foreign (mark : Char) (outside : mark.isDigit = false) : character ≠ mark := by
      rintro rfl
      rw [digit] at outside
      cases outside
    have printed : Text.isBlank character = false :=
      Text.isBlank_eq_false (by omega) (by omega)
    simp [IsOfWord, isMark, isSeparator, printed, foreign]
  · have marks : IsWord ['.', 'e', '-'] := by decide
    exact marks.2 character other

/-- A word ends where it is broken. -/
theorem parts_of_breaks {word rest : List Char} (breaks : Breaks rest) :
    parts word rest = ended word ++ parts [] rest := by
  cases rest with
  | nil => simp [parts, ended]
  | cons character others =>
      have notWord := breaks character rfl
      simp only [parts]
      split
      · simp [ended]
      split
      · simp [ended]
      split
      · simp [ended]
      · next noQuote noMark noSeparator =>
          exact absurd ⟨noQuote, by simpa using noMark, by simpa using noSeparator⟩ notWord

theorem parts_append {text : List Char} (each : ∀ character ∈ text, IsOfWord character)
    (begun rest : List Char) : parts begun (text ++ rest) = parts (begun ++ text) rest := by
  induction text generalizing begun with
  | nil => simp
  | cons character others ih =>
      obtain ⟨⟨noQuote, noMark, noSeparator⟩, later⟩ := List.forall_mem_cons.1 each
      rw [List.cons_append, parts, if_neg noQuote, noMark, noSeparator, if_neg Bool.false_ne_true,
        if_neg Bool.false_ne_true, ih later, List.append_assoc]
      rfl

theorem IsWord.scans {word : List Char} (isWord : IsWord word) : Scans word [.word word] := by
  intro rest breaks
  rw [parts_append isWord.2, parts_of_breaks breaks, List.nil_append, ended, if_neg isWord.1]

theorem quotedParts_append {text : List Char} (each : ∀ character ∈ text, character ≠ '"')
    (begun rest : List Char) :
    quotedParts begun (text ++ '"' :: rest) = .quoted (begun ++ text) :: parts [] rest := by
  induction text generalizing begun with
  | nil => simp [quotedParts]
  | cons character others ih =>
      obtain ⟨noQuote, later⟩ := List.forall_mem_cons.1 each
      rw [List.cons_append, quotedParts, if_neg noQuote, ih later, List.append_assoc]
      rfl

theorem scans_quote {text : String} (isName : IsName text) :
    Scans (quote text) [.quoted text.toList] := by
  intro rest _
  have noQuote : ∀ character ∈ text.toList, character ≠ '"' := by
    rintro _ member rfl
    have isName := isName _ member
    revert isName
    decide
  have behind := quotedParts_append noQuote [] rest
  simp only [quote, List.cons_append, List.append_assoc, List.nil_append] at behind ⊢
  rw [parts, if_pos rfl, behind]
  rfl

/-! ## Brackets and what is between them -/

/-- Whether a text only keeps parts apart. -/
def IsGap (text : List Char) : Prop :=
  ∀ character ∈ text,
    character ≠ '"' ∧ isMark character = false ∧ isSeparator character = true

theorem parts_gap {gap : List Char} (isGap : IsGap gap) (rest : List Char) :
    parts [] (gap ++ rest) = parts [] rest := by
  induction gap with
  | nil => rfl
  | cons character others ih =>
      obtain ⟨⟨noQuote, noMark, separates⟩, later⟩ := List.forall_mem_cons.1 isGap
      rw [List.cons_append, parts, if_neg noQuote, noMark, separates, if_neg Bool.false_ne_true,
        if_pos rfl, ih later]
      rfl

theorem parts_mark {mark : Char} (isMark : isMark mark = true) (rest : List Char) :
    parts [] (mark :: rest) = .mark mark :: parts [] rest := by
  have noQuote : mark ≠ '"' := by
    rintro rfl
    cases isMark
  rw [parts, if_neg noQuote, if_pos isMark]
  rfl

theorem breaks_cons {character : Char} (foreign : ¬ IsOfWord character) (rest : List Char) :
    Breaks (character :: rest) := by
  rintro _ ⟨⟩
  exact foreign

theorem breaks_mark {mark : Char} (isMark : isMark mark = true) (rest : List Char) :
    Breaks (mark :: rest) :=
  breaks_cons (fun ofWord => absurd isMark (by simp [ofWord.2.1])) rest

theorem breaks_gap_append {gap rest : List Char} (isGap : IsGap gap) (breaks : Breaks rest) :
    Breaks (gap ++ rest) := by
  cases gap with
  | nil => exact breaks
  | cons character others =>
      have separates := (isGap character List.mem_cons_self).2.2
      exact breaks_cons (fun ofWord => absurd separates (by simp [ofWord.2.2])) _

/-- Whether a layout puts nothing but gaps between the parts. -/
structure Layout.Spaces (layout : Layout) : Prop where
  margin (level : Nat) : IsGap (layout.margin level)
  gap : IsGap layout.gap

theorem Layout.spaces_oneLine : oneLine.Spaces :=
  ⟨fun _ => List.forall_mem_nil _, List.forall_mem_nil _⟩

theorem Layout.spaces_indented : indented.Spaces where
  margin level := by
    refine List.forall_mem_cons.2 ⟨by decide, fun character member => ?_⟩
    rw [List.eq_of_mem_replicate member]
    decide
  gap := List.forall_mem_singleton.2 (by decide)

section

variable {layout : Layout} (spaces : layout.Spaces) {texts : List (List Char)}
  {reads : List (List Part)}

include spaces

/-- Each text that stands behind a comma is taken apart by itself. -/
theorem parts_flatMap (each : List.Forall₂ Scans texts reads) (level : Nat) {rest : List Char}
    (breaks : Breaks rest) :
    let written := texts.flatMap (fun text => ',' :: layout.margin level ++ text)
    Breaks (written ++ rest) ∧
      parts [] (written ++ rest) = reads.flatten ++ parts [] rest := by
  have isGap : IsGap (',' :: layout.margin level) :=
    List.forall_mem_cons.2 ⟨by decide, spaces.margin level⟩
  induction each with
  | nil => exact ⟨breaks, rfl⟩
  | cons scans _ ih =>
      simp only [List.flatMap_cons, List.flatten_cons, List.append_assoc] at ih ⊢
      refine ⟨breaks_cons (by decide) _, ?_⟩
      rw [parts_gap isGap, scans _ ih.1, ih.2]

theorem scans_enclose (each : List.Forall₂ Scans texts reads) (level : Nat) {left right : Char}
    (isLeft : isMark left = true) (isRight : isMark right = true) :
    Scans (layout.enclose level left right texts)
      (.mark left :: reads.flatten ++ [.mark right]) := by
  intro rest _
  have close : parts [] (layout.margin level ++ right :: rest) =
      .mark right :: parts [] rest := by
    rw [parts_gap (spaces.margin level), parts_mark isRight]
  have breaks : Breaks (layout.margin level ++ right :: rest) :=
    breaks_gap_append (spaces.margin level) (breaks_mark isRight rest)
  cases each with
  | nil =>
      rw [Layout.enclose, List.cons_append, parts_mark isLeft, List.singleton_append,
        parts_mark isRight]
      rfl
  | cons scans others =>
      obtain ⟨behind, later⟩ := parts_flatMap spaces others (level + 1) breaks
      simp only [Layout.enclose, List.cons_append, List.append_assoc, List.nil_append,
        List.flatten_cons] at behind later ⊢
      rw [parts_mark isLeft, parts_gap (spaces.margin _), scans _ behind, later, close]

theorem scans_field {key : String} {text : List Char} {read : List Part} (isName : IsName key)
    (scans : Scans text read) :
    Scans (quote key ++ ':' :: layout.gap ++ text) (.quoted key.toList :: read) := by
  have isGap : IsGap (':' :: layout.gap) := List.forall_mem_cons.2 ⟨by decide, spaces.gap⟩
  intro rest breaks
  have name : parts [] (quote key ++ (':' :: layout.gap ++ (text ++ rest))) = _ :=
    scans_quote isName _ (breaks_cons (by decide) _)
  rw [List.append_assoc, List.append_assoc, name, parts_gap isGap, scans rest breaks]
  rfl

end

/-! ## Putting parts together -/

/-- Whether parts are read as one value, wherever it is put. -/
def Puts (read : List Part) (value : Json) : Prop :=
  ∀ frames, read.foldlM take? frames = put? value frames

/-- Whether parts are read as one more element of an open frame. -/
def Extends {α : Type} (frame : List α → Frame) (read : List Part) (element : α) : Prop :=
  ∀ before outer, read.foldlM take? (frame before :: outer) =
    some (frame (before ++ [element]) :: outer)

theorem extends_list {read : List Part} {value : Json} (puts : Puts read value) :
    Extends .list read value :=
  fun _ _ => puts _

theorem extends_record {read : List Part} {value : Json} (puts : Puts read value)
    (key : String) :
    Extends (.record · none) (.quoted key.toList :: read) (key, value) := by
  intro before outer
  rw [List.foldlM_cons, take?, String.ofList_toList]
  exact puts _

theorem foldlM_flatten {α : Type} {frame : List α → Frame} {reads : List (List Part)}
    {elements : List α} (each : List.Forall₂ (Extends frame) reads elements) (before : List α)
    (outer : List Frame) :
    reads.flatten.foldlM take? (frame before :: outer) =
      some (frame (before ++ elements) :: outer) := by
  induction each generalizing before with
  | nil => rw [List.append_nil]; rfl
  | cons extends_ _ ih =>
      rw [List.flatten_cons, List.foldlM_append, extends_]
      exact (ih _).trans (by rw [List.append_assoc]; rfl)

theorem puts_list {reads : List (List Part)} {items : List Json}
    (each : List.Forall₂ (Extends .list) reads items) :
    Puts (.mark '[' :: reads.flatten ++ [.mark ']']) (.list items) := by
  intro frames
  have between := foldlM_flatten each [] frames
  simp [List.foldlM_append, take?, between, Frame.close?]

theorem puts_record {reads : List (List Part)} {fields : List (String × Json)}
    (each : List.Forall₂ (Extends (.record · none)) reads fields) :
    Puts (.mark '\x7b' :: reads.flatten ++ [.mark '\x7d']) (.record fields) := by
  intro frames
  have between := foldlM_flatten each [] frames
  simp [List.foldlM_append, take?, between, Frame.close?]

/-! ## Reading back -/

/-- Whether a text is taken apart and put together to a value again, but for its fractions. -/
def ReadsBack (text : List Char) (value : Json) : Prop :=
  ∃ read other, Scans text read ∧ Puts read other ∧
    other.withoutFractions = value.withoutFractions

theorem IsWord.readsBack {word : List Char} {value : Json} (isWord : IsWord word)
    (same : (ofWord word).withoutFractions = value.withoutFractions) : ReadsBack word value :=
  ⟨[.word word], ofWord word, isWord.scans, fun _ => bind_pure _, same⟩

theorem ofWord_ofInt (number : Int) : ofWord (Numeral.ofInt number) = .whole number := by
  rw [ofWord, Numeral.signed?_ofInt]

/-- A word that is no whole number is a fraction, if anything. -/
theorem withoutFractions_ofWord {word : List Char} (noWhole : Numeral.signed? word = none) :
    (ofWord word).withoutFractions = .null := by
  rw [ofWord, noWhole]
  dsimp only
  split <;> rfl

theorem readsBack_null {value : Json} (bare : value.withoutFractions = .null) :
    ReadsBack "null".toList value := by
  have isWord : IsWord "null".toList := by decide
  exact isWord.readsBack ((withoutFractions_ofWord rfl).trans bare.symm)

theorem readsBack_fraction {layout : Decimal.Layout} {value : Float} {text : List Char}
    (written : layout.text? value = some text) : ReadsBack text (.fraction value) := by
  have isWord : IsWord text := ⟨Decimal.Layout.ne_nil_of_text? written, fun _ member =>
    isOfWord_of_isNumeral (Decimal.Layout.isNumeral_of_text? written _ member)⟩
  exact isWord.readsBack (withoutFractions_ofWord (Decimal.Layout.signed?_of_text? written))

theorem writeItems_eq_map (layout : Layout) (level : Nat) (items : List Json) :
    writeItems layout level items = items.map (write layout level) := by
  induction items with
  | nil => rfl
  | cons item others ih => rw [writeItems, ih, List.map_cons]

/-- Write one field. -/
def writeField (layout : Layout) (level : Nat) (field : String × Json) : List Char :=
  quote field.1 ++ ':' :: layout.gap ++ field.2.write layout level

theorem writeFields_eq_map (layout : Layout) (level : Nat) (fields : List (String × Json)) :
    writeFields layout level fields = fields.map (writeField layout level) := by
  induction fields with
  | nil => rfl
  | cons field others ih => rw [writeFields, ih, List.map_cons, writeField]

/-- Elements that are read back one by one are read back together. -/
theorem exists_reads {α : Type} {elements : List α} {text : α → List Char}
    {puts : List Part → α → Prop} {bare : α → α}
    (each : ∀ element ∈ elements, ∃ read other,
      Scans (text element) read ∧ puts read other ∧ bare other = bare element) :
    ∃ reads others, List.Forall₂ Scans (elements.map text) reads ∧
      List.Forall₂ puts reads others ∧ others.map bare = elements.map bare := by
  induction elements with
  | nil => exact ⟨[], [], .nil, .nil, rfl⟩
  | cons element elements ih =>
      obtain ⟨first, later⟩ := List.forall_mem_cons.1 each
      obtain ⟨read, other, scans, puts, same⟩ := first
      obtain ⟨reads, others, allScan, allPut, allSame⟩ := ih later
      exact ⟨read :: reads, other :: others, .cons scans allScan, .cons puts allPut,
        congrArg₂ List.cons same allSame⟩

/-- Whatever is written is read back.  The level is free in the induction, since items and fields
are written one level deeper. -/
theorem Plain.readsBack {layout : Layout} (spaces : layout.Spaces) {value : Json}
    (plain : Plain value) (level : Nat) : ReadsBack (value.write layout level) value := by
  induction plain generalizing level with
  | null => exact readsBack_null rfl
  | whole number =>
      have isWord : IsWord (Numeral.ofInt number) := ⟨Numeral.ofInt_ne_nil number,
        fun _ member => isOfWord_of_isNumeral (Numeral.isNumeral_of_mem_ofInt member)⟩
      exact isWord.readsBack (congrArg withoutFractions (ofWord_ofInt number))
  | fraction value =>
      rw [write]
      cases written : fractionLayout.text? value with
      | none => exact readsBack_null rfl
      | some text => exact readsBack_fraction written
  | @name text isName =>
      refine ⟨_, .name text, scans_quote isName, fun frames => ?_, rfl⟩
      rw [List.foldlM_cons, take?, String.ofList_toList]
      exact bind_pure _
  | @list items _ ih =>
      have each : ∀ item ∈ items, ∃ read other, Scans (write layout (level + 1) item) read ∧
          Extends .list read other ∧ other.withoutFractions = item.withoutFractions := by
        intro item member
        obtain ⟨read, other, scans, puts, same⟩ := ih item member (level + 1)
        exact ⟨read, other, scans, extends_list puts, same⟩
      obtain ⟨reads, others, scans, puts, same⟩ := exists_reads each
      rw [write, writeItems_eq_map]
      refine ⟨_, .list others, scans_enclose spaces scans level rfl rfl, puts_list puts, ?_⟩
      rw [withoutFractions, withoutFractions, itemsWithoutFractions_eq_map,
        itemsWithoutFractions_eq_map, same]
  | @record fields keys _ ih =>
      have each : ∀ field ∈ fields, ∃ read other,
          Scans (writeField layout (level + 1) field) read ∧ Extends (.record · none) read other ∧
            fieldWithoutFractions other = fieldWithoutFractions field := by
        intro field member
        obtain ⟨read, other, scans, puts, same⟩ := ih field member (level + 1)
        exact ⟨_, (field.1, other), scans_field spaces (keys field member) scans,
          extends_record puts field.1, congrArg (field.1, ·) same⟩
      obtain ⟨reads, others, scans, puts, same⟩ := exists_reads each
      rw [write, writeFields_eq_map]
      refine ⟨_, .record others, scans_enclose spaces scans level rfl rfl, puts_record puts, ?_⟩
      rw [withoutFractions, withoutFractions, fieldsWithoutFractions_eq_map,
        fieldsWithoutFractions_eq_map, same]

/-- A text that is written and read again has all of a value but its fractions. -/
theorem ReadsBack.read? {text : List Char} {value : Json} (back : ReadsBack text value) :
    ∃ other, read? (String.ofList text) = some other ∧
      other.withoutFractions = value.withoutFractions := by
  obtain ⟨read, other, scans, puts, same⟩ := back
  have whole : parts [] text = read := by
    simpa [parts, ended] using scans [] (by rintro _ ⟨⟩)
  refine ⟨other, ?_, same⟩
  rw [Json.read?, String.toList_ofList, whole, puts]
  rfl

theorem read?_compact {value : Json} (plain : Plain value) :
    ∃ other, read? value.compact = some other ∧
      other.withoutFractions = value.withoutFractions :=
  (plain.readsBack Layout.spaces_oneLine 0).read?

theorem read?_pretty {value : Json} (plain : Plain value) :
    ∃ other, read? value.pretty = some other ∧
      other.withoutFractions = value.withoutFractions :=
  (plain.readsBack Layout.spaces_indented 0).read?

end ScoreSynth.Json
