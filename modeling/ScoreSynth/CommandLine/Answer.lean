import ScoreSynth.CommandLine.Libraries
import ScoreSynth.Document
import ScoreSynth.Summary.Json

/-!
# How the tools answer

A request names the document it needs, if any.  Given the document, the answer is
a text for standard output, and perhaps a file to be written.  Both tools load,
read and render a document before they write anything, so a document that one of
them refuses the other refuses too.
-/

namespace ScoreSynth.CommandLine

/-- Why a request cannot be met. -/
inductive Failure where
  | load (fault : LoadFault)
  | score (fault : Fault)
  deriving DecidableEq

/-- The wording of a failure. -/
def Failure.message : Failure → String
  | load fault => fault.message
  | score fault => fault.message

/-- The exit code for a failure. -/
def Failure.code : Failure → Nat
  | load _ => 1
  | score fault => if fault.breaks then 101 else 1

/-- What a tool does in answer to a request. -/
structure Answer where
  /-- The exit code. -/
  code : Nat
  /-- What is written to standard output. -/
  output : String
  /-- The file to be written, with its path. -/
  file : Option (List Char × String)
  /-- What is written to standard error. -/
  complaint : String
  deriving DecidableEq

namespace Answer

/-- Success, with a text for standard output. -/
def success (output : String) : Answer :=
  ⟨0, output, none, ""⟩

/-- Failure after the arguments were read. -/
def failure (code : Nat) (complaint : String) : Answer :=
  ⟨code, "", none, complaint⟩

/-- The answer to arguments that make no request. -/
def stopped (tool : Tool) : Stop → Answer
  | .usage => ⟨2, "", none, s!"wrong arguments; try '{tool.name} --help'"⟩
  | .shows text => success text

/-- An answer whose file could not be written. -/
def unwritten (answer : Answer) : Answer :=
  { answer with code := 1, file := none, complaint := "cannot write the output file" }

end Answer

/-- Read and render a document. -/
def renderDocument (tape : RandomTape) (document : Except LoadFault (List Char)) :
    Except Failure (Score × List Rendering) := do
  let text ← document.mapError .load
  let score ← (Score.parse text).mapError .score
  let renderings ← (score.render.run tape).1.mapError .score
  return (score, renderings)

/-- The line that a check prints for a channel. -/
def checkLine (rendering : Rendering) : String :=
  s!"channel {rendering.index}: {rendering.samples.length} samples at " ++
    s!"{rendering.rate}Hz, {rendering.duration}ms\n"

/-- Print a text, or store it at a destination, ended by a line feed. -/
def Answer.delivered (destination : Option (List Char)) (text : String) : Answer :=
  match destination with
  | none => .success (text ++ "\n")
  | some path => { Answer.success "" with file := some (path, text ++ "\n") }

namespace Request

/-- The document that a request needs. -/
def source? : Request → Option Source
  | listInstruments => none
  | check source | play source => some source
  | summarize path _ _ => some (.file path)

/-- Answer a request with the document it needs.  There is no device to play on. -/
def answer (request : Request) (libraries : Libraries) (tape : RandomTape)
    (document : Except LoadFault (List Char)) : Answer :=
  let rendered (succeed : Score → List Rendering → Answer) : Answer :=
    match renderDocument tape document with
    | .error failure => .failure failure.code failure.message
    | .ok (score, renderings) => succeed score renderings
  match request with
  | listInstruments =>
      .success (String.join (Instrument.all.map (·.name ++ "\n")))
  | check _ => rendered fun _ renderings =>
      .success (String.join (renderings.map checkLine))
  | play _ => rendered fun _ _ =>
      .failure 1 (Fault.sinkUnavailable "there is no audio device; use --check").message
  | summarize _ destination compact => rendered fun score renderings =>
      let summary := (Summary.ofScore score).withRenderings renderings
      match libraries.writeJson compact summary.toJson with
      | .error reason => .failure 1 reason
      | .ok text => .delivered destination text

end Request

namespace Libraries

variable (libraries : Libraries)

/-- Load the document that a request needs. -/
def loadSource (disk : Disk) (input : List UInt8) :
    Option Source → Except LoadFault (List Char)
  | none => .ok []
  | some .standardInput => Document.ofOctetsWith libraries.decompress input
  | some (.file path) => Document.loadWith libraries.decompress disk path

/-- Run a tool on a disk.  The disk is handed back with what was written. -/
def run (tool : Tool) (arguments : List (List Char)) (input : List UInt8)
    (tape : RandomTape) (disk : Disk) : Answer × Disk :=
  match libraries.request tool arguments with
  | .error stop => (.stopped tool stop, disk)
  | .ok request =>
      let answer := request.answer libraries tape
        (libraries.loadSource disk input request.source?)
      match answer.file with
      | none => (answer, disk)
      | some (path, content) =>
          match disk.store? path content.toUTF8.toList with
          | none => (answer.unwritten, disk)
          | some disk => (answer, disk)

end Libraries

/-- Run a tool with the libraries that are built in. -/
def run : Tool → List (List Char) → List UInt8 → RandomTape → Disk → Answer × Disk :=
  Libraries.builtIn.run

end ScoreSynth.CommandLine
