import ScoreSynth.Gzip.Code

/-!
# Inflating

Compressed data is a sequence of blocks.  A block holds octets as they are, or
symbols of two codes: literal octets, and copies of octets that have already been
written, given by a length and a distance.  The codes are fixed ones, or are
described at the head of the block.

A copy that reaches back beyond the first octet finds zeros there.
-/

namespace ScoreSynth.Gzip

open BitStream (Within)

/-- The least value and the number of further bits of each symbol for a length. -/
def lengths : List (Nat × Nat) :=
  [(3, 0), (4, 0), (5, 0), (6, 0), (7, 0), (8, 0), (9, 0), (10, 0), (11, 1),
   (13, 1), (15, 1), (17, 1), (19, 2), (23, 2), (27, 2), (31, 2), (35, 3),
   (43, 3), (51, 3), (59, 3), (67, 4), (83, 4), (99, 4), (115, 4), (131, 5),
   (163, 5), (195, 5), (227, 5), (258, 0)]

/-- The least value and the number of further bits of each symbol for a distance. -/
def distances : List (Nat × Nat) :=
  [(1, 0), (2, 0), (3, 0), (4, 0), (5, 1), (7, 1), (9, 2), (13, 2), (17, 3),
   (25, 3), (33, 4), (49, 4), (65, 5), (97, 5), (129, 6), (193, 6), (257, 7),
   (385, 7), (513, 8), (769, 8), (1025, 9), (1537, 9), (2049, 10), (3073, 10),
   (4097, 11), (6145, 11), (8193, 12), (12289, 12), (16385, 13), (24577, 13)]

/-- The symbol that ends a block. -/
def endOfBlock : Nat := 256

/-- The value of a symbol, with the further bits that belong to it. -/
def extended (table : List (Nat × Nat)) (symbol : Nat) (stream : BitStream) :
    Except Fault (Nat × Within stream.size) :=
  match table[symbol]? with
  | none => .error .corrupt
  | some (least, bits) => do
      let (extra, rest) ← stream.take bits
      return (least + extra, rest)

/-- Repeat octets already written, one by one, so that a copy may reach into
itself. -/
def copyBack (distance : Nat) : Nat → Array UInt8 → Array UInt8
  | 0, output => output
  | count + 1, output =>
      let octet :=
        if distance ≤ output.size then output.getD (output.size - distance) 0 else 0
      copyBack distance count (output.push octet)

/-- What the symbols of a block stand for. -/
inductive Piece where
  | octet (value : UInt8)
  | copy (length back : Nat)
  | ending

/-- Add a piece to the octets already written. -/
def Piece.append : Piece → Array UInt8 → Array UInt8
  | octet value, output => output.push value
  | copy length back, output => copyBack back length output
  | ending, output => output

/-- Read one piece of a block. -/
def takePiece (literal distance : Code) (stream : BitStream) :
    Except Fault (Piece × stream.After) := do
  let (symbol, rest) ← literal.symbol stream
  if symbol < endOfBlock then return (.octet symbol.toUInt8, rest)
  else if symbol = endOfBlock then return (.ending, rest)
  else
    let (length, rest') ← extended lengths (symbol - endOfBlock - 1) rest.1
    let (symbol, rest'') ← distance.symbol rest'.1
    let (back, after) ← extended distances symbol rest''.1
    have fewer : after.1.size < stream.size :=
      Nat.lt_of_le_of_lt after.2
        (Nat.lt_of_lt_of_le rest''.2 (Nat.le_trans rest'.2 (Nat.le_of_lt rest.2)))
    return (.copy length back, ⟨after.1, fewer⟩)

/-- The pieces of a block, to its end. -/
def inflateSymbols (literal distance : Code) {bound : Nat} (output : Array UInt8)
    (stream : Within bound) : Except Fault (Array UInt8 × Within bound) :=
  match takePiece literal distance stream.1 with
  | .error fault => .error fault
  | .ok (piece, rest) =>
      let following : Within bound :=
        ⟨rest.1, Nat.le_trans (Nat.le_of_lt rest.2) stream.2⟩
      match piece with
      | .ending => .ok (output, following)
      | piece => inflateSymbols literal distance (piece.append output) following
termination_by stream.1.size
decreasing_by exact rest.2

/-- The code for literals and lengths that needs no description. -/
def fixedLiteral : Code :=
  .ofLengths (List.replicate 144 8 ++ List.replicate 112 9 ++ List.replicate 24 7 ++
    List.replicate 8 8)

/-- The code for distances that needs no description. -/
def fixedDistance : Code :=
  .ofLengths (List.replicate 32 5)

/-- A block of octets as they are.  Their number is given twice, the second time
with all bits inverted. -/
def inflateStored (output : Array UInt8) (stream : BitStream) :
    Except Fault (Array UInt8 × Within stream.size) :=
  match whole : stream.octets with
  | low :: high :: lowInverse :: highInverse :: octets =>
      let length := low.toNat + 256 * high.toNat
      let inverse := lowInverse.toNat + 256 * highInverse.toNat
      if length + inverse ≠ 0xFFFF then .error .corrupt
      else if octets.length < length then .error .truncated
      else .ok (output ++ octets.take length,
        ⟨⟨[], octets.drop length⟩, by simp [BitStream.size, whole]; omega⟩)
  | _ => .error .truncated

/-- The order in which the lengths of the code for lengths are written. -/
def lengthOrder : List Nat :=
  [16, 17, 18, 0, 8, 7, 9, 6, 10, 5, 11, 4, 12, 3, 13, 2, 14, 1, 15]

/-- Read so many numbers of three bits. -/
def takeTriples : (count : Nat) → (stream : BitStream) →
    Except Fault (List Nat × Within stream.size)
  | 0, stream => .ok ([], stream.unread)
  | count + 1, stream => do
      let (number, rest) ← stream.take 3
      let (numbers, rest') ← takeTriples count rest.1
      return (number :: numbers, ⟨rest'.1, Nat.le_trans rest'.2 rest.2⟩)

/-- The code for lengths, from the lengths written for some of its symbols. -/
def codeOfTriples (triples : List Nat) : Code :=
  .ofLengths ((List.range 19).map fun symbol =>
    ((lengthOrder.zip triples).lookup symbol).getD 0)

/-- Read the lengths of two codes, `total` of them.  Some symbols stand for several
equal lengths. -/
def takeLengths (code : Code) (total : Nat) {bound : Nat} (found : Array Nat)
    (stream : Within bound) : Except Fault (List Nat × Within bound) :=
  if found.size = total then .ok (found.toList, stream)
  else if total < found.size then .error .corrupt
  else
    match code.symbol stream.1 with
    | .error fault => .error fault
    | .ok (symbol, rest) =>
        have shorter := rest.2
        have within := stream.2
        if symbol < 16 then
          takeLengths code total (found.push symbol) ⟨rest.1, by omega⟩
        else
          let run : Option (Nat × Nat × Nat) :=
            if symbol = 16 then found.back?.map (·, 3, 2)
            else if symbol = 17 then some (0, 3, 3)
            else some (0, 11, 7)
          match run with
          | none => .error .corrupt
          | some (length, least, bits) =>
              match rest.1.take bits with
              | .error fault => .error fault
              | .ok (extra, after) =>
                  have := after.2
                  takeLengths code total
                    (found ++ List.replicate (least + extra) length) ⟨after.1, by omega⟩
termination_by stream.1.size

/-- Read the description of two codes at the head of a block. -/
def takeCodes (stream : BitStream) :
    Except Fault (Code × Code × Within stream.size) := do
  let (literals, rest) ← stream.take 5
  let (distances, rest') ← rest.1.take 5
  let (triples, rest'') ← rest'.1.take 4
  let literals := literals + 257
  let distances := distances + 1
  if 286 < literals ∨ 30 < distances then throw .corrupt
  let (triples, body) ← takeTriples (triples + 4) rest''.1
  let code := codeOfTriples triples
  if ! code.isComplete then throw .corrupt
  have within : body.1.size ≤ stream.size :=
    Nat.le_trans body.2 (Nat.le_trans rest''.2 (Nat.le_trans rest'.2 rest.2))
  let (lengths, rest) ← takeLengths code (literals + distances) #[] ⟨body.1, within⟩
  let literal := Code.ofLengths (lengths.take literals)
  let distance := Code.ofLengths (lengths.drop literals)
  if ! literal.isUsable || ! distance.isUsable then throw .corrupt
  return (literal, distance, rest)

/-- The body of a block of a given kind. -/
def inflateBlock (kind : Nat) (output : Array UInt8) (stream : BitStream) :
    Except Fault (Array UInt8 × Within stream.size) :=
  match kind with
  | 0 => inflateStored output stream
  | 1 => inflateSymbols fixedLiteral fixedDistance output stream.unread
  | 2 => do
      let (literal, distance, body) ← takeCodes stream
      inflateSymbols literal distance output body
  | _ => .error .corrupt

/-- Blocks up to the one that is marked as the last. -/
def inflateBlocks (output : Array UInt8) (stream : BitStream) :
    Except Fault (Array UInt8 × BitStream) :=
  match stream.next with
  | .error fault => .error fault
  | .ok (isLast, rest) =>
      match rest.1.take 2 with
      | .error fault => .error fault
      | .ok (kind, body) =>
          match inflateBlock kind output body.1 with
          | .error fault => .error fault
          | .ok (output, after) =>
              have := rest.2
              have := body.2
              have := after.2
              if isLast then .ok (output, after.1) else inflateBlocks output after.1
termination_by stream.size

/-- The octets that compressed data stands for, and what follows the data. -/
def inflate (octets : List UInt8) : Except Fault (List UInt8 × List UInt8) := do
  let (output, rest) ← inflateBlocks #[] (.ofOctets octets)
  return (output.toList, rest.octets)

end ScoreSynth.Gzip
