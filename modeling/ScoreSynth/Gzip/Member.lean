import ScoreSynth.Gzip.Checksum
import ScoreSynth.Gzip.Inflate

/-!
# Compressed files

A compressed file is a header, compressed data, and a trailer that holds the
checksum and the length of the data.  Only the first such member is read; what
follows it is ignored.  The ten octets at the head are all read before any of
them is judged.
-/

namespace ScoreSynth.Gzip

/-- The two octets that a compressed file begins with. -/
def magic : List UInt8 := [0x1F, 0x8B]

/-- The one compression method there is. -/
def deflateMethod : UInt8 := 8

/-- The longest text field of a header. -/
def longestField : Nat := 65535

/-- Which parts a header has, by the bits of its flags. -/
inductive Flag where
  | headerChecksum
  | extra
  | name
  | comment
  deriving DecidableEq, Repr

/-- The bit of a flag. -/
def Flag.bit : Flag → Nat
  | headerChecksum => 1
  | extra => 2
  | name => 3
  | comment => 4

/-- Split off so many octets. -/
def takeOctets (count : Nat) (octets : List UInt8) :
    Except Fault (List UInt8 × List UInt8) :=
  if octets.length < count then .error .truncated else .ok (octets.splitAt count)

/-- The number that some octets stand for, the lowest octet first. -/
def littleEndian (octets : List UInt8) : Nat :=
  octets.foldr (fun octet number => octet.toNat + 256 * number) 0

/-- Skip a text field, which a zero ends. -/
def skipText (octets : List UInt8) : Except Fault (List UInt8) :=
  if longestField < (octets.takeWhile (· ≠ 0)).length then .error .corrupt
  else match octets.dropWhile (· ≠ 0) with
    | [] => .error .truncated
    | _ :: others => .ok others

/-- Skip the header of a file. -/
def skipHeader (file : List UInt8) : Except Fault (List UInt8) := do
  let (head, body) ← takeOctets 10 file
  let flags := (head.getD 3 0).toNat
  if head.take 2 ≠ magic ∨ head.getD 2 0 ≠ deflateMethod ∨ 0x20 ≤ flags then
    throw .corrupt
  let has (flag : Flag) : Bool := flags.testBit flag.bit
  let mut body := body
  if has .extra then
    let (length, others) ← takeOctets 2 body
    body := (← takeOctets (littleEndian length) others).2
  if has .name then
    body ← skipText body
  if has .comment then
    body ← skipText body
  if has .headerChecksum then
    let header := file.take (file.length - body.length)
    let (expected, others) ← takeOctets 2 body
    if littleEndian expected ≠ (checksum header).toNat % 0x10000 then throw .corrupt
    body := others
  return body

/-- The octets that a compressed file stands for. -/
def gunzip (file : List UInt8) : Except Fault (List UInt8) := do
  let (output, others) ← inflate (← skipHeader file)
  let (trailer, _) ← takeOctets 8 others
  if littleEndian (trailer.take 4) ≠ (checksum output).toNat ∨
      littleEndian (trailer.drop 4) ≠ output.length % 0x100000000 then
    throw .corrupt
  return output

end ScoreSynth.Gzip
