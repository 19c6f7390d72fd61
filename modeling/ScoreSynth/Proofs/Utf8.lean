import Mathlib
import ScoreSynth.Utf8

/-!
# Decoding inverts encoding

Decoding accepts the encodings of texts and nothing else, and gives the text back
(`decode_eq_ok_iff`).  What there is to say about one character is arithmetic on its first
octet and the octets behind it (`utf8EncodeChar_eq_cons_iff`); the rest goes one character after
the other.
-/

namespace ScoreSynth.Utf8

/-! ## One character -/

/-- The bits of a character, from those of its first octet and the octets that continue it. -/
def bitsWith (bits : Nat) (tail : List UInt8) : Nat :=
  tail.foldl (fun bits octet => bits * 64 + (octet.toNat - 0x80)) bits

theorem bitsWith_cons (bits : Nat) (octet : UInt8) (tail : List UInt8) :
    bitsWith bits (octet :: tail) = bitsWith (bits * 64 + (octet.toNat - 0x80)) tail := by
  simp only [bitsWith, List.foldl_cons]

/-- Whether an octet lies in a range. -/
def InRange (range : Nat × Nat) (octet : UInt8) : Prop :=
  range.1 ≤ octet.toNat ∧ octet.toNat ≤ range.2

instance (range : Nat × Nat) (octet : UInt8) : Decidable (InRange range octet) :=
  inferInstanceAs (Decidable (_ ∧ _))

/-- Whether a first octet, and the octets that continue what it begins, stand for a code. -/
structure Spells (first : UInt8) (begun : Pending) (tail : List UInt8) (code : Nat) : Prop where
  lead_eq : lead? first.toNat = some begun
  inRange : List.Forall₂ InRange begun.ranges tail
  bits_eq : bitsWith begun.bits tail = code

/-- The range of the octet behind a first one that announces at least two. -/
def second (first : Nat) : Nat × Nat :=
  if first = 0xE0 then (0xA0, 0xBF)
  else if first = 0xED then (0x80, 0x9F)
  else if first = 0xF0 then (0x90, 0xBF)
  else if first = 0xF4 then (0x80, 0x8F)
  else continuation

theorem inRange_continuation {octet : UInt8} :
    InRange continuation octet ↔ 0x80 ≤ octet.toNat ∧ octet.toNat ≤ 0xBF := Iff.rfl

theorem inRange_second {first : Nat} {octet : UInt8} :
    InRange (second first) octet ↔ 0x80 ≤ octet.toNat ∧ octet.toNat ≤ 0xBF ∧
      (first = 0xE0 → 0xA0 ≤ octet.toNat) ∧ (first = 0xED → octet.toNat ≤ 0x9F) ∧
      (first = 0xF0 → 0x90 ≤ octet.toNat) ∧ (first = 0xF4 → octet.toNat ≤ 0x8F) := by
  rw [second, InRange]
  grind [continuation]

/-- The first octet says how many octets follow it. -/
theorem lead?_eq (octet : Nat) :
    lead? octet =
      if octet < 0x80 then some ⟨octet, [], 1⟩
      else if octet < 0xC2 then none
      else if octet < 0xE0 then some ⟨octet - 0xC0, [continuation], 1⟩
      else if octet < 0xF0 then some ⟨octet - 0xE0, [second octet, continuation], 1⟩
      else if octet < 0xF5 then
        some ⟨octet - 0xF0, [second octet, continuation, continuation], 1⟩
      else none := by
  rw [lead?, second]
  grind

/-- What a code is encoded as. -/
def encodeCode (code : Nat) : List UInt8 :=
  if code ≤ 0x7F then [.ofNat code]
  else if code ≤ 0x7FF then [.ofNat (code / 64 % 32 + 0xC0), .ofNat (code % 64 + 0x80)]
  else if code ≤ 0xFFFF then
    [.ofNat (code / 4096 % 16 + 0xE0), .ofNat (code / 64 % 64 + 0x80),
      .ofNat (code % 64 + 0x80)]
  else
    [.ofNat (code / 262144 % 8 + 0xF0), .ofNat (code / 4096 % 64 + 0x80),
      .ofNat (code / 64 % 64 + 0x80), .ofNat (code % 64 + 0x80)]

theorem utf8EncodeChar_eq (character : Char) :
    String.utf8EncodeChar character = encodeCode character.toNat := rfl

theorem ofNat_eq_of_eq_toNat {number : Nat} (octet : UInt8) (same : number = octet.toNat) :
    UInt8.ofNat number = octet :=
  same ▸ UInt8.ofNat_toNat

/-- The octets that stand for a code are what it is encoded as. -/
theorem Spells.encodes {first : UInt8} {begun : Pending} {tail : List UInt8} {code : Nat}
    (spells : Spells first begun tail code) :
    code.isValidChar ∧ encodeCode code = first :: tail := by
  obtain ⟨lead, inRange, bits⟩ := spells
  rw [lead?_eq] at lead
  split_ifs at lead with one _ two three four
  all_goals
    obtain rfl := Option.some.inj lead
    simp only [List.forall₂_cons_left_iff, List.forall₂_nil_left_iff, inRange_second,
      inRange_continuation] at inRange
  · subst inRange
    simp only [bitsWith, List.foldl] at bits
    refine ⟨.inl (by omega), ?_⟩
    rw [encodeCode, if_pos (by omega), ofNat_eq_of_eq_toNat _ bits.symm]
  · obtain ⟨second, _, _, rfl, rfl⟩ := inRange
    simp only [bitsWith, List.foldl] at bits
    refine ⟨.inl (by omega), ?_⟩
    rw [encodeCode, if_neg (by omega), if_pos (by omega), ofNat_eq_of_eq_toNat first (by omega),
      ofNat_eq_of_eq_toNat second (by omega)]
  · obtain ⟨second, _, _, ⟨third, _, _, rfl, rfl⟩, rfl⟩ := inRange
    simp only [bitsWith, List.foldl] at bits
    refine ⟨by rw [Nat.isValidChar]; omega, ?_⟩
    rw [encodeCode, if_neg (by omega), if_neg (by omega), if_pos (by omega),
      ofNat_eq_of_eq_toNat first (by omega), ofNat_eq_of_eq_toNat second (by omega),
      ofNat_eq_of_eq_toNat third (by omega)]
  · obtain ⟨second, _, _, ⟨third, _, _, ⟨fourth, _, _, rfl, rfl⟩, rfl⟩, rfl⟩ := inRange
    simp only [bitsWith, List.foldl] at bits
    refine ⟨.inr (by omega), ?_⟩
    rw [encodeCode, if_neg (by omega), if_neg (by omega), if_neg (by omega),
      ofNat_eq_of_eq_toNat first (by omega), ofNat_eq_of_eq_toNat second (by omega),
      ofNat_eq_of_eq_toNat third (by omega), ofNat_eq_of_eq_toNat fourth (by omega)]

/-- What a code is encoded as stands for it. -/
theorem exists_spells {code : Nat} (valid : code.isValidChar) :
    ∃ first begun tail, encodeCode code = first :: tail ∧ Spells first begun tail code := by
  have toNat {number : Nat} (small : number < 256) : (UInt8.ofNat number).toNat = number :=
    UInt8.toNat_ofNat_of_lt' small
  rw [Nat.isValidChar] at valid
  rw [encodeCode]
  split_ifs with one two three
  · refine ⟨_, ⟨code, [], 1⟩, _, rfl, ?_, .nil, rfl⟩
    rw [toNat (by omega), lead?_eq, if_pos (by omega)]
  · refine ⟨_, ⟨code / 64 % 32, [continuation], 1⟩, _, rfl, ?_, ?_, ?_⟩
    · rw [toNat (by omega), lead?_eq, if_neg (by omega), if_neg (by omega), if_pos (by omega),
        Nat.add_sub_cancel]
    · simp (disch := omega) only [List.forall₂_cons, List.forall₂_nil_left_iff,
        inRange_continuation, toNat, and_true]
      omega
    · simp (disch := omega) only [bitsWith, List.foldl, toNat]
      omega
  · refine ⟨_, ⟨code / 4096 % 16, [second (code / 4096 % 16 + 0xE0), continuation], 1⟩, _, rfl,
      ?_, ?_, ?_⟩
    · rw [toNat (by omega), lead?_eq, if_neg (by omega), if_neg (by omega), if_neg (by omega),
        if_pos (by omega), Nat.add_sub_cancel]
    · simp (disch := omega) only [List.forall₂_cons, List.forall₂_nil_left_iff, inRange_second,
        inRange_continuation, toNat, and_true]
      omega
    · simp (disch := omega) only [bitsWith, List.foldl, toNat]
      omega
  · refine ⟨_, ⟨code / 262144 % 8,
      [second (code / 262144 % 8 + 0xF0), continuation, continuation], 1⟩, _, rfl, ?_, ?_, ?_⟩
    · rw [toNat (by omega), lead?_eq, if_neg (by omega), if_neg (by omega), if_neg (by omega),
        if_neg (by omega), if_pos (by omega), Nat.add_sub_cancel]
    · simp (disch := omega) only [List.forall₂_cons, List.forall₂_nil_left_iff, inRange_second,
        inRange_continuation, toNat, and_true]
      omega
    · simp (disch := omega) only [bitsWith, List.foldl, toNat]
      omega

/-- Some octets stand for a code exactly when they are the encoding of a character with this
code. -/
theorem utf8EncodeChar_eq_cons_iff {character : Char} {first : UInt8} {tail : List UInt8} :
    String.utf8EncodeChar character = first :: tail ↔
      ∃ begun, Spells first begun tail character.toNat := by
  rw [utf8EncodeChar_eq]
  constructor
  · intro encoded
    obtain ⟨first', begun, tail', encoded', spells⟩ := exists_spells character.valid
    obtain ⟨rfl, rfl⟩ := List.cons.inj (encoded.symm.trans encoded')
    exact ⟨begun, spells⟩
  · intro spelled
    obtain ⟨begun, spells⟩ := spelled
    exact spells.encodes.2

/-! ## One character after the other -/

/-- What has been decoded once a further octet has been read. -/
def Pending.settle (next : Pending) (done : List Char) : List Char × Option Pending :=
  if next.ranges.isEmpty then (Char.ofNat next.bits :: done, none) else (done, some next)

variable {done text : List Char} {index : Nat} {octets : List UInt8}

theorem decodeFrom_none_cons (first : UInt8) :
    decodeFrom done index none (first :: octets) =
      match lead? first.toNat with
      | none => .error ⟨index, some 1⟩
      | some begun =>
          decodeFrom (begun.settle done).1 (index + 1) (begun.settle done).2 octets := rfl

theorem decodeFrom_some_cons (bits length : Nat) (range : Nat × Nat) (ranges : List (Nat × Nat))
    (octet : UInt8) :
    decodeFrom done index (some ⟨bits, range :: ranges, length⟩) (octet :: octets) =
      if InRange range octet then
        let next : Pending := ⟨bits * 64 + (octet.toNat - 0x80), ranges, length + 1⟩
        decodeFrom (next.settle done).1 (index + 1) (next.settle done).2 octets
      else .error ⟨index - length, some length⟩ := rfl

/-- The octets that continue a character are read before anything else. -/
theorem decodeFrom_settle_eq_ok {begun : Pending} :
    decodeFrom (begun.settle done).1 index (begun.settle done).2 octets = .ok text ↔
      ∃ tail rest, octets = tail ++ rest ∧ List.Forall₂ InRange begun.ranges tail ∧
        decodeFrom (Char.ofNat (bitsWith begun.bits tail) :: done) (index + tail.length) none
          rest = .ok text := by
  obtain ⟨bits, ranges, length⟩ := begun
  induction ranges generalizing bits length index octets with
  | nil => simp [Pending.settle, bitsWith]
  | cons range ranges ih =>
      cases octets with
      | nil => simp [Pending.settle, decodeFrom]
      | cons octet octets =>
          change decodeFrom done index (some ⟨bits, range :: ranges, length⟩) _ = _ ↔ _
          rw [decodeFrom_some_cons]
          constructor
          · intro decoded
            split at decoded
            · next inRange =>
              obtain ⟨tail, rest, rfl, continued, later⟩ := (ih _ _).1 decoded
              refine ⟨octet :: tail, rest, rfl, .cons inRange continued, ?_⟩
              rw [bitsWith_cons, List.length_cons, Nat.add_comm tail.length, ← Nat.add_assoc]
              exact later
            · cases decoded
          · intro decoded
            obtain ⟨tail, rest, whole, continued, later⟩ := decoded
            cases continued with
            | cons inRange continued =>
                obtain ⟨rfl, rfl⟩ := List.cons.inj whole
                rw [if_pos inRange]
                refine (ih _ _).2 ⟨_, rest, rfl, continued, ?_⟩
                rw [bitsWith_cons, List.length_cons, Nat.add_comm (List.length _),
                  ← Nat.add_assoc] at later
                exact later

/-- A text is decoded by decoding its first character and then the others. -/
theorem decodeFrom_cons_eq_ok {first : UInt8} :
    decodeFrom done index none (first :: octets) = .ok text ↔
      ∃ character tail rest, octets = tail ++ rest ∧
        String.utf8EncodeChar character = first :: tail ∧
        decodeFrom (character :: done) (index + 1 + tail.length) none rest = .ok text := by
  rw [decodeFrom_none_cons]
  constructor
  · intro decoded
    cases leads : lead? first.toNat with
    | none =>
        rw [leads] at decoded
        cases decoded
    | some begun =>
        rw [leads] at decoded
        obtain ⟨tail, rest, whole, inRange, later⟩ := decodeFrom_settle_eq_ok.1 decoded
        have spells : Spells first begun tail _ := ⟨leads, inRange, rfl⟩
        obtain ⟨valid, encoded⟩ := spells.encodes
        refine ⟨_, tail, rest, whole, ?_, later⟩
        rw [utf8EncodeChar_eq, Char.toNat_ofNat, if_pos valid]
        exact encoded
  · intro decoded
    obtain ⟨character, tail, rest, whole, encoded, later⟩ := decoded
    obtain ⟨begun, leads, inRange, bits⟩ := utf8EncodeChar_eq_cons_iff.1 encoded
    rw [leads]
    refine decodeFrom_settle_eq_ok.2 ⟨tail, rest, whole, inRange, ?_⟩
    rw [bits, Char.ofNat_toNat]
    exact later

theorem encode_cons (character : Char) (text : List Char) :
    encode (character :: text) = String.utf8EncodeChar character ++ encode text := rfl

theorem decodeFrom_eq_ok :
    decodeFrom done index none octets = .ok text ↔
      ∃ characters, octets = encode characters ∧ text = done.reverse ++ characters := by
  constructor
  · intro decoded
    -- A character takes several octets at once, so the induction is on how many are left.
    induction size : octets.length using Nat.strong_induction_on generalizing octets done index
    next size ih =>
    cases octets with
    | nil =>
        cases decoded
        exact ⟨[], rfl, (List.append_nil _).symm⟩
    | cons first octets =>
        obtain ⟨character, tail, rest, rfl, encoded, later⟩ := decodeFrom_cons_eq_ok.1 decoded
        obtain ⟨characters, rfl, rfl⟩ := ih _ (by simp [← size]) later rfl
        refine ⟨character :: characters, ?_, ?_⟩
        · rw [encode_cons, encoded, List.cons_append]
        · rw [List.reverse_cons, List.append_assoc, List.singleton_append]
  · intro encoded
    obtain ⟨characters, rfl, rfl⟩ := encoded
    induction characters generalizing done index with
    | nil => simp [encode, decodeFrom]
    | cons character characters ih =>
        obtain ⟨first, begun, tail, encoded, _⟩ := exists_spells character.valid
        have encoded : String.utf8EncodeChar character = first :: tail := encoded
        rw [encode_cons, encoded, List.cons_append]
        refine decodeFrom_cons_eq_ok.2 ⟨character, tail, _, rfl, encoded, ?_⟩
        rw [ih, List.reverse_cons, List.append_assoc, List.singleton_append]

/-- Decoding accepts the encoding of a text, and nothing else. -/
theorem decode_eq_ok_iff : decode octets = .ok text ↔ octets = encode text := by
  rw [decode, decodeFrom_eq_ok]
  simp

end ScoreSynth.Utf8
