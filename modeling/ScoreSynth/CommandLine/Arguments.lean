import ScoreSynth.CommandLine.Request

/-!
# Arguments of a command line

An argument is a switch or a positional argument.  A switch is written with one
letter behind a dash or with its name behind two; several letters can share one
dash.  The value of a switch is what follows in the same argument, perhaps behind
an equals sign, or else the next argument, unless that looks like a switch.  Two
dashes alone make everything behind them positional.

Arguments are read from left to right, and the first one that ends the reading
decides: a wrong one, or one that asks for the version or for help.
-/

namespace ScoreSynth.CommandLine

/-- What a switch does to the options read so far.  A change that is refused makes
the arguments wrong. -/
inductive Effect (options : Type) where
  | flag (change : options → Option options)
  | valued (change : List Char → options → Option options)
  | stop (reason : Stop)

/-- A switch with its letter and its name. -/
structure Switch (options : Type) where
  letter : Char
  name : List Char
  effect : Effect options

/-- The arguments that a tool takes. -/
structure Grammar (options : Type) where
  switches : List (Switch options)
  positional : List Char → options → Option options

/-- A change that still needs its value. -/
abbrev Waiting (options : Type) := Option (List Char → options → Option options)

/-- Make a refused change a wrong argument. -/
def orUsage {α : Type} : Option α → Except Stop α
  | some value => .ok value
  | none => .error .usage

/-- Whether an argument looks like a switch.  A dash alone does not. -/
def looksLikeSwitch : List Char → Bool
  | '-' :: _ :: _ => true
  | _ => false

namespace Grammar

variable {options : Type} (grammar : Grammar options)

/-- Read letters behind one dash. -/
def readLetters (current : options) :
    List Char → Except Stop (options × Waiting options)
  | [] => .ok (current, none)
  | letter :: others =>
      match grammar.switches.find? (·.letter = letter) with
      | none => .error .usage
      | some switch =>
          match switch.effect with
          | .stop reason => .error reason
          | .flag change => do readLetters (← orUsage (change current)) others
          | .valued change =>
              match others with
              | [] => .ok (current, some change)
              | '=' :: value => do return (← orUsage (change value current), none)
              | value => do return (← orUsage (change value current), none)

/-- Read a name behind two dashes. -/
def readName (current : options) (text : List Char) :
    Except Stop (options × Waiting options) :=
  let value : Option (List Char) :=
    match text.dropWhile (· ≠ '=') with
    | [] => none
    | _ :: value => some value
  match grammar.switches.find? (·.name = text.takeWhile (· ≠ '=')) with
  | none => .error .usage
  | some switch =>
      match switch.effect, value with
      | .stop reason, none => .error reason
      | .flag change, none => do return (← orUsage (change current), none)
      | .valued change, none => .ok (current, some change)
      | .valued change, some value => do return (← orUsage (change value current), none)
      | .stop _, some _ | .flag _, some _ => .error .usage

/-- Read one argument. -/
def readArgument (current : options) : List Char → Except Stop (options × Waiting options)
  | '-' :: '-' :: text => grammar.readName current text
  | '-' :: letter :: letters => grammar.readLetters current (letter :: letters)
  | text => do return (← orUsage (grammar.positional text current), none)

/-- Read all arguments. -/
def read (current : options) : List (List Char) → Except Stop options
  | [] => .ok current
  | argument :: others =>
      if argument = ['-', '-'] then
        others.foldlM (fun current text => orUsage (grammar.positional text current)) current
      else
        match grammar.readArgument current argument with
        | .error stop => .error stop
        | .ok (current, none) => read current others
        | .ok (current, some change) =>
            match others with
            | [] => .error .usage
            | value :: others =>
                if looksLikeSwitch value then .error .usage
                else match change value current with
                  | none => .error .usage
                  | some current => read current others

end Grammar

/-! ## The arguments of the tools -/

namespace Tool

/-- The name and version of a tool. -/
def version (tool : Tool) : String :=
  s!"{tool.name} 0.1.0\n"

/-- How a tool is used. -/
def help : Tool → String
  | player =>
      "NSMF music notation player\n\n" ++
      "Usage: nsmf [OPTIONS] [INPUT]\n\n" ++
      "Arguments:\n" ++
      "  [INPUT]  Input NSMF file, plain or gzip-compressed " ++
      "(reads from stdin if not specified)\n\n" ++
      "Options:\n" ++
      "  -L, --list-instruments  List available instruments\n" ++
      "  -c, --check             Parse and render only, print a summary instead of playing\n" ++
      "  -v, --verbose           Enable debug logging\n" ++
      "  -h, --help              Print help\n" ++
      "  -V, --version           Print version\n"
  | summarizer =>
      "Summarize NSMF files as JSON\n\n" ++
      "Usage: nsmf2json [OPTIONS] <INPUT>\n\n" ++
      "Arguments:\n" ++
      "  <INPUT>  Input NSMF file (plain or gzip-compressed)\n\n" ++
      "Options:\n" ++
      "  -o, --output <OUTPUT>  Output JSON file (writes to stdout if not specified)\n" ++
      "  -c, --compact          Output compact JSON (default is pretty-printed)\n" ++
      "  -h, --help             Print help\n" ++
      "  -V, --version          Print version\n"

/-- The switches that show a text about a tool. -/
def stopSwitches (tool : Tool) (options : Type) : List (Switch options) :=
  [⟨'h', "help".toList, .stop (.shows tool.help)⟩,
    ⟨'V', "version".toList, .stop (.shows tool.version)⟩]

end Tool

/-- Turn a flag on, once. -/
def turnOn (isOn : Bool) : Option Bool :=
  if isOn then none else some true

/-- Take a path, once.  No path is empty. -/
def takePath (text : List Char) (taken : Option (List Char)) : Option (Option (List Char)) :=
  if text.isEmpty || taken.isSome then none else some (some text)

namespace PlayerOptions

/-- The arguments of the player. -/
def grammar : Grammar PlayerOptions where
  switches :=
    [⟨'L', "list-instruments".toList, .flag fun options =>
        (turnOn options.listInstruments).map ({ options with listInstruments := · })⟩,
      ⟨'c', "check".toList, .flag fun options =>
        (turnOn options.check).map ({ options with check := · })⟩,
      ⟨'v', "verbose".toList, .flag fun options =>
        (turnOn options.verbose).map ({ options with verbose := · })⟩] ++
    Tool.player.stopSwitches PlayerOptions
  positional := fun text options =>
    (takePath text options.input).map ({ options with input := · })

/-- Read the arguments of the player. -/
def read (arguments : List (List Char)) : Except Stop PlayerOptions :=
  grammar.read ⟨none, false, false, false⟩ arguments

end PlayerOptions

namespace SummarizerOptions

/-- Options of the summarizer that still may lack the input. -/
structure Begun where
  input : Option (List Char)
  output : Option (List Char)
  compact : Bool

/-- The arguments of the summarizer. -/
def grammar : Grammar Begun where
  switches :=
    [⟨'o', "output".toList, .valued fun text options =>
        (takePath text options.output).map ({ options with output := · })⟩,
      ⟨'c', "compact".toList, .flag fun options =>
        (turnOn options.compact).map ({ options with compact := · })⟩] ++
    Tool.summarizer.stopSwitches Begun
  positional := fun text options =>
    (takePath text options.input).map ({ options with input := · })

/-- The options that have been read; the input must be given. -/
def Begun.finish (options : Begun) : Except Stop SummarizerOptions := do
  return ⟨← orUsage options.input, options.output, options.compact⟩

/-- Read the arguments of the summarizer. -/
def read (arguments : List (List Char)) : Except Stop SummarizerOptions := do
  (← grammar.read ⟨none, none, false⟩ arguments).finish

end SummarizerOptions

end ScoreSynth.CommandLine
