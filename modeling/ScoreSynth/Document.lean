import ScoreSynth.Disk
import ScoreSynth.Gzip.Member
import ScoreSynth.Utf8

/-!
# Loading documents

A document is text in UTF-8, as it is or compressed.  Which of the two it is shows
in its first two octets, which no text can begin with.
-/

namespace ScoreSynth

/-- Why a document cannot be loaded. -/
inductive LoadFault where
  | cannotOpen (path : List Char) (cause : OpenFault)
  | isDirectory
  | compression (fault : Gzip.Fault)
  | notText (fault : Utf8.Fault)
  deriving DecidableEq, Repr

/-- The kinds of faults that a caller can tell apart. -/
inductive LoadFault.Kind where
  | notFound
  | invalidFilename
  | isDirectory
  | unexpectedEnd
  | invalidInput
  | invalidData
  | other
  deriving DecidableEq, Repr

namespace LoadFault

/-- The kind of a fault. -/
def kind : LoadFault → Kind
  | cannotOpen _ .missing => .notFound
  | cannotOpen _ .nameTooLong => .invalidFilename
  | cannotOpen _ .nulCharacter | compression .corrupt => .invalidInput
  | cannotOpen _ (.other _) => .other
  | isDirectory => .isDirectory
  | compression .truncated => .unexpectedEnd
  | notText _ => .invalidData

/-- The wording of a fault. -/
def message : LoadFault → String
  | cannotOpen path cause =>
      s!"IO error: Failed to open '{String.ofList path}': {cause.message}"
  | isDirectory => "IO error: Is a directory (os error 21)"
  | compression .truncated => "IO error: unexpected end of file"
  | compression .corrupt => "IO error: corrupt compressed data"
  | notText fault => s!"IO error: {fault.message}"

end LoadFault

namespace Document

section

variable (decompress : List UInt8 → Except Gzip.Fault (List UInt8))

/-- The octets of the text: the content itself, or what it is decompressed to. -/
def payloadWith (content : List UInt8) : Except LoadFault (List UInt8) :=
  if Gzip.magic.isPrefixOf content then (decompress content).mapError .compression
  else .ok content

/-- The text of a document, given what compressed content is decompressed to. -/
def ofOctetsWith (content : List UInt8) : Except LoadFault (List Char) := do
  (Utf8.decode (← payloadWith decompress content)).mapError .notText

/-- Load a document from a disk. -/
def loadWith (disk : Disk) (path : List Char) : Except LoadFault (List Char) := do
  match ← (disk.lookUp path).mapError (.cannotOpen path) with
  | .directory => throw .isDirectory
  | .file content => ofOctetsWith decompress content

end

/-- The text of a document, decompressed as the format has it. -/
def ofOctets (content : List UInt8) : Except LoadFault (List Char) :=
  ofOctetsWith Gzip.gunzip content

/-- Load a document from a disk, decompressed as the format has it. -/
def load (disk : Disk) (path : List Char) : Except LoadFault (List Char) :=
  loadWith Gzip.gunzip disk path

end Document

end ScoreSynth
