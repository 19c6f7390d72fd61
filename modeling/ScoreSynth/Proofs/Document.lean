import ScoreSynth.Document
import ScoreSynth.Proofs.Stepwise
import ScoreSynth.Proofs.Utf8

/-!
# Loading is transparent

A document is loaded as the text that its octets encode, and as nothing else
(`ofOctetsWith_eq_ok`).  Compressed documents are told apart by their first two octets, and
no text is encoded in octets that begin in this way (`not_magic_prefix_encode`).  How a
document is decompressed does not matter for this, so it is left open.
-/

namespace ScoreSynth.Document

open Stepwise

/-- The octet that a compressed document begins with is a character, and the one behind it
begins none. -/
theorem decode_magic_append (rest : List UInt8) :
    Utf8.decode (Gzip.magic ++ rest) = .error ⟨1, some 1⟩ := rfl

theorem not_magic_prefix_encode (text : List Char) : ¬ Gzip.magic <+: Utf8.encode text := by
  intro begins
  obtain ⟨rest, encoded⟩ := begins
  have decoded : Utf8.decode (Gzip.magic ++ rest) = .ok text := Utf8.decode_eq_ok_iff.2 encoded
  rw [decode_magic_append] at decoded
  cases decoded

variable (decompress : List UInt8 → Except Gzip.Fault (List UInt8))

theorem ofOctetsWith_gunzip (content : List UInt8) :
    ofOctetsWith Gzip.gunzip content = ofOctets content := rfl

/-- Whether some octets are what a document stands for: its content, decompressed once if it
begins as compressed content does. -/
def IsPayload (content octets : List UInt8) : Prop :=
  if Gzip.magic <+: content then decompress content = .ok octets else octets = content

variable {decompress} {content octets : List UInt8} {text : List Char}

theorem isPayload_of_packed (packed : Gzip.magic <+: content) :
    IsPayload decompress content octets ↔ decompress content = .ok octets := by
  rw [IsPayload, if_pos packed]

theorem isPayload_of_plain (plain : ¬ Gzip.magic <+: content) :
    IsPayload decompress content octets ↔ octets = content := by
  rw [IsPayload, if_neg plain]

theorem payloadWith_eq_ok :
    payloadWith decompress content = .ok octets ↔ IsPayload decompress content octets := by
  simp only [payloadWith, IsPayload, List.isPrefixOf_iff_prefix]
  split
  · exact mapError_eq_ok
  · rw [Except.ok.injEq, eq_comm]

/-- A document is loaded as the text that its payload encodes. -/
theorem ofOctetsWith_eq_ok :
    ofOctetsWith decompress content = .ok text ↔
      IsPayload decompress content (Utf8.encode text) := by
  simp only [ofOctetsWith, bind_eq_ok, payloadWith_eq_ok, mapError_eq_ok, Utf8.decode_eq_ok_iff,
    exists_eq_right]

/-- A payload that is no text is refused for this reason. -/
theorem exists_ofOctetsWith_eq_error (payload : IsPayload decompress content octets)
    (noText : ∀ text, octets ≠ Utf8.encode text) :
    ∃ fault, ofOctetsWith decompress content = .error (.notText fault) := by
  rw [ofOctetsWith, payloadWith_eq_ok.2 payload, ok_bind]
  cases decoded : Utf8.decode octets with
  | ok text => exact absurd (Utf8.decode_eq_ok_iff.1 decoded) (noText text)
  | error fault => exact ⟨fault, rfl⟩

/-- Loading is transparent, whatever compressed content is decompressed to.  Text that is
encoded as it is, and text that is encoded and then compressed, are loaded as they were.
Nothing is loaded but the text that the payload encodes, and a payload that encodes no text is
invalid data. -/
theorem ofOctets_transparent (decompress : List UInt8 → Except Gzip.Fault (List UInt8)) :
    (∀ content, ofOctetsWith Gzip.gunzip content = ofOctets content) ∧
    (∀ text, ¬ Gzip.magic <+: Utf8.encode text ∧
      ofOctetsWith decompress (Utf8.encode text) = .ok text) ∧
    (∀ content text, Gzip.magic <+: content → decompress content = .ok (Utf8.encode text) →
      ofOctetsWith decompress content = .ok text) ∧
    (∀ content text, ofOctetsWith decompress content = .ok text →
      IsPayload decompress content (Utf8.encode text)) ∧
    (∀ content octets, IsPayload decompress content octets →
      (∀ text, octets ≠ Utf8.encode text) →
        ∃ fault, ofOctetsWith decompress content = .error fault ∧ fault.kind = .invalidData) := by
  refine ⟨ofOctetsWith_gunzip, fun text => ⟨not_magic_prefix_encode text, ?_⟩, ?_, ?_, ?_⟩
  · exact ofOctetsWith_eq_ok.2 ((isPayload_of_plain (not_magic_prefix_encode text)).2 rfl)
  · intro content text packed unpacked
    exact ofOctetsWith_eq_ok.2 ((isPayload_of_packed packed).2 unpacked)
  · intro content text loaded
    exact ofOctetsWith_eq_ok.1 loaded
  · intro content octets payload noText
    obtain ⟨fault, refused⟩ := exists_ofOctetsWith_eq_error payload noText
    exact ⟨_, refused, rfl⟩

/-- A byte order mark, a letter with an accent, a carriage return, a line feed and a NUL. -/
def oddText : List Char :=
  ['\uFEFF', 'é', '\r', '\n', '\x00']

/-- A compressed file that holds this text. -/
def oddFile : List UInt8 :=
  [0x1F, 0x8B, 0x08, 0x00, 0x00, 0x00, 0x00, 0x00, 0x00, 0xFF, 0x01, 0x08, 0x00, 0xF7, 0xFF,
   0xEF, 0xBB, 0xBF, 0xC3, 0xA9, 0x0D, 0x0A, 0x00, 0x03, 0xED, 0xDD, 0x9A, 0x08, 0x00, 0x00,
   0x00]

theorem ofOctets_transparent_odd :
    Gzip.magic <+: oddFile ∧ Gzip.gunzip oddFile = .ok (Utf8.encode oddText) ∧
      ofOctets oddFile = .ok oddText ∧ ofOctets (Utf8.encode oddText) = .ok oddText := by
  have packed : Gzip.magic <+: oddFile := by decide
  have unpacked : Gzip.gunzip oddFile = .ok (Utf8.encode oddText) := by decide +kernel
  obtain ⟨same, plain, compressed, _⟩ := ofOctets_transparent Gzip.gunzip
  refine ⟨packed, unpacked, ?_, ?_⟩
  · rw [← same]
    exact compressed oddFile oddText packed unpacked
  · rw [← same]
    exact (plain oddText).2

end ScoreSynth.Document
