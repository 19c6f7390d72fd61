/-!
# What the tools are asked to do

There are two tools.  The player checks a score or plays it; the summarizer writes
a summary of it.  Each has options, and they make a request.
-/

namespace ScoreSynth.CommandLine

/-- The two tools. -/
inductive Tool where
  | player
  | summarizer
  deriving DecidableEq, Repr

/-- The name of a tool. -/
def Tool.name : Tool → String
  | player => "nsmf"
  | summarizer => "nsmf2json"

/-- Where a document comes from. -/
inductive Source where
  | standardInput
  | file (path : List Char)
  deriving DecidableEq, Repr

/-- What a tool is asked to do. -/
inductive Request where
  | listInstruments
  | check (source : Source)
  | play (source : Source)
  | summarize (path : List Char) (destination : Option (List Char)) (compact : Bool)
  deriving DecidableEq, Repr

/-- The options of the player. -/
structure PlayerOptions where
  input : Option (List Char)
  listInstruments : Bool
  check : Bool
  verbose : Bool
  deriving DecidableEq, Repr

/-- The request that the options of the player make. -/
def PlayerOptions.request (options : PlayerOptions) : Request :=
  let source := match options.input with
    | some path => Source.file path
    | none => .standardInput
  if options.listInstruments then .listInstruments
  else if options.check then .check source
  else .play source

/-- The options of the summarizer. -/
structure SummarizerOptions where
  input : List Char
  output : Option (List Char)
  compact : Bool
  deriving DecidableEq, Repr

/-- The request that the options of the summarizer make. -/
def SummarizerOptions.request (options : SummarizerOptions) : Request :=
  .summarize options.input options.output options.compact

/-- Why arguments are read as no options. -/
inductive Stop where
  /-- The arguments are wrong. -/
  | usage
  /-- They ask for a text about the tool itself. -/
  | shows (text : String)
  deriving DecidableEq, Repr

end ScoreSynth.CommandLine
