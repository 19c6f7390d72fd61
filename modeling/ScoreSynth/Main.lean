import ScoreSynth.CommandLine.Answer

/-!
# The command line

Joins the tools to the files and streams of the system.  The tool is chosen by the
name under which the program is called.
-/

open ScoreSynth ScoreSynth.CommandLine

namespace ScoreSynth.Main

/-- Read a stream to its end. -/
partial def readAll (stream : IO.FS.Stream) (read : ByteArray) : IO ByteArray := do
  let more ← stream.read 65536
  if more.isEmpty then return read else readAll stream (read ++ more)

/-- Why a file could not be read. -/
def loadFault (path : List Char) : IO.Error → LoadFault
  | .noFileOrDirectory .. => .cannotOpen path .missing
  | .inappropriateType .. => .isDirectory
  | reason => .cannotOpen path (.other s!"{reason}")

/-- Load the document that a request needs. -/
def loadSource (libraries : Libraries) : Option Source → IO (Except LoadFault (List Char))
  | none => return .ok []
  | some .standardInput => do
      let content ← readAll (← IO.getStdin) ByteArray.empty
      return Document.ofOctetsWith libraries.decompress content.toList
  | some (.file path) => do
      match ← (IO.FS.readBinFile (String.ofList path)).toBaseIO with
      | .ok content => return Document.ofOctetsWith libraries.decompress content.toList
      | .error reason => return .error (loadFault path reason)

/-- Write the file of an answer, if it has one. -/
def writeFile (answer : Answer) : IO Answer := do
  match answer.file with
  | none => return answer
  | some (path, content) =>
      match ← (IO.FS.writeFile (String.ofList path) content).toBaseIO with
      | .ok () => return answer
      | .error _ => return answer.unwritten

/-- The tool that a program name stands for. -/
def toolOfName (name : String) : Tool :=
  if name.endsWith Tool.summarizer.name then .summarizer else .player

end ScoreSynth.Main

def main (arguments : List String) : IO UInt32 := do
  let program ← IO.appPath
  let tool := ScoreSynth.Main.toolOfName s!"{program}"
  let libraries := Libraries.builtIn
  let answer ← match libraries.request tool (arguments.map String.toList) with
    | .error stop => pure (Answer.stopped tool stop)
    | .ok request => do
        let document ← ScoreSynth.Main.loadSource libraries request.source?
        -- Nothing that the tools print depends on the words of the tape.
        let tape := RandomTape.fresh fun _ => RandomTape.middle
        ScoreSynth.Main.writeFile (request.answer libraries tape document)
  IO.print answer.output
  if ! answer.complaint.isEmpty then IO.eprintln answer.complaint
  return answer.code.toUInt32
