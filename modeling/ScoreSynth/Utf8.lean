/-!
# UTF-8

A character is one to four octets.  The first octet says how many follow and in
which range each of them must lie; the ranges exclude surrogates, code points
beyond the last one and forms longer than needed.  A sequence is refused at the
first octet that is out of range, and the fault says where the sequence begins
and how many of its octets were in order.
-/

namespace ScoreSynth.Utf8

/-- Why octets are not UTF-8. -/
structure Fault where
  /-- The position at which the faulty sequence begins. -/
  index : Nat
  /-- The length of the sequence up to the octet that is out of range; `none` if
  the octets end within the sequence. -/
  length : Option Nat
  deriving DecidableEq, Repr

/-- The wording of a fault. -/
def Fault.message (fault : Fault) : String :=
  match fault.length with
  | some length => s!"invalid utf-8 sequence of {length} bytes from index {fault.index}"
  | none => s!"incomplete utf-8 byte sequence from index {fault.index}"

/-- A character of which octets are still to come. -/
structure Pending where
  /-- The bits collected so far. -/
  bits : Nat
  /-- The ranges of the octets to come, in order. -/
  ranges : List (Nat × Nat)
  /-- The number of octets so far. -/
  length : Nat
  deriving DecidableEq, Repr

/-- The range of an octet that continues a character. -/
def continuation : Nat × Nat := (0x80, 0xBF)

/-- What a first octet begins; `none` if no character begins with it. -/
def lead? (octet : Nat) : Option Pending :=
  let begin (mark : Nat) (ranges : List (Nat × Nat)) : Option Pending :=
    some ⟨octet - mark, ranges, 1⟩
  if octet < 0x80 then begin 0 []
  else if octet < 0xC2 then none
  else if octet < 0xE0 then begin 0xC0 [continuation]
  else if octet = 0xE0 then begin 0xE0 [(0xA0, 0xBF), continuation]
  else if octet = 0xED then begin 0xE0 [(0x80, 0x9F), continuation]
  else if octet < 0xF0 then begin 0xE0 [continuation, continuation]
  else if octet = 0xF0 then begin 0xF0 [(0x90, 0xBF), continuation, continuation]
  else if octet < 0xF4 then begin 0xF0 [continuation, continuation, continuation]
  else if octet = 0xF4 then begin 0xF0 [(0x80, 0x8F), continuation, continuation]
  else none

/-- Decode octets from a position on.  `done` holds the characters read so far, the
last one first, and `pending` the character that has begun. -/
def decodeFrom (done : List Char) (index : Nat) (pending : Option Pending) :
    List UInt8 → Except Fault (List Char)
  | [] =>
      match pending with
      | none => .ok done.reverse
      | some begun => .error ⟨index - begun.length, none⟩
  | octet :: others =>
      let settle (next : Pending) : List Char × Option Pending :=
        if next.ranges.isEmpty then (Char.ofNat next.bits :: done, none)
        else (done, some next)
      match pending with
      | none =>
          match lead? octet.toNat with
          | none => .error ⟨index, some 1⟩
          | some next => decodeFrom (settle next).1 (index + 1) (settle next).2 others
      | some begun =>
          match begun.ranges with
          | [] => .error ⟨index, some 1⟩
          | (first, last) :: ranges =>
              if first ≤ octet.toNat ∧ octet.toNat ≤ last then
                let next : Pending :=
                  ⟨begun.bits * 64 + (octet.toNat - 0x80), ranges, begun.length + 1⟩
                decodeFrom (settle next).1 (index + 1) (settle next).2 others
              else .error ⟨index - begun.length, some begun.length⟩

/-- The text that some octets encode. -/
def decode (octets : List UInt8) : Except Fault (List Char) :=
  decodeFrom [] 0 none octets

/-- The octets that encode a text. -/
def encode (text : List Char) : List UInt8 :=
  text.flatMap String.utf8EncodeChar

end ScoreSynth.Utf8
