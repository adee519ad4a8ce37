import SicXe.CommandLine.Host
import SicXe.CommandLine.Options
import SicXe.Listing
import SicXe.Registry.Load
import SicXe.Text.ControlChar

/-!
# SicXe.CommandLine.Run

The command: read the registry and the source, assemble, tell what there is to say, and write
the object records, the symbols and the literals, in this order and whatever was said.
-/

namespace SicXe.CommandLine

/-! ## what is printed -/

/-- The name of a level of detail in the log. -/
def detailName : Detail → String
  | .debug => "DEBUG"
  | .trace => "TRACE"

/-- A field of a log line. -/
def logField (name value : String) : String :=
  " " ++ name ++ "=" ++ value

/-- A number as a field of a log line. -/
def logNumber (name : String) (value : Nat) : String :=
  logField name (Text.decimal value)

/-- An event as the log tells it. -/
structure LogEntry where
  /-- The part of the assembler the event comes from. -/
  part : String
  message : String
  /-- The fields behind the message, each with a space in front. -/
  fields : String
  deriving Repr, DecidableEq

/-- What the log tells of an event. -/
def logEntry : Event → LogEntry
  | .openedSection name =>
    ⟨"sicxe_asm::asm::pass1", "opened section", logField "section" name⟩
  | .placedLiterals address length =>
    ⟨"sicxe_asm::asm::pass1", "flushed literal pool",
      logNumber "addr" address ++ logNumber "len" length⟩
  | .located operator line address length =>
    ⟨"sicxe_asm::asm::pass1", "located " ++ operator,
      logNumber "line" line ++ logNumber "addr" address ++ logNumber "len" length⟩
  | .encoded operator line address code =>
    ⟨"sicxe_asm::asm::pass2", "encoded " ++ operator,
      logNumber "line" line ++ logNumber "addr" address ++
        logField "code" (Bytes.toHex code)⟩
  | .generatedSection name length =>
    ⟨"sicxe_asm::asm::pass2", "generated section",
      logField "section" name ++ logNumber "length" length⟩

/-- An event as a line of the log.  The message cannot command a terminal; the fields stand as
they are. -/
def logLine (event : Event) : String :=
  let entry := logEntry event
  detailName event.detail ++ " " ++ entry.part ++ ": " ++ Text.showControls entry.message ++
    entry.fields

/-- Whether an event is logged at a verbosity. -/
def isLogged (verbosity : Nat) (event : Event) : Bool :=
  match event.detail with
  | .debug => verbosity ≥ 1
  | .trace => verbosity ≥ 2

/-- A line about the progress of the work, its first word moved to the right. -/
def progressLine (word rest : String) : String :=
  Text.padLeft 12 word ++ " " ++ rest ++ "\n"

/-- A line about the work on a file. -/
def targetLine (word path : String) : String :=
  progressLine word ("target " ++ path)

/-- A line of help below what it is about. -/
def helpLine (help : String) : String :=
  "  help: " ++ help ++ "\n"

/-- A diagnostic about a source file. -/
def diagnosticText (path : String) (diagnostic : Diagnostic) : String :=
  diagnostic.severity.text ++ ": " ++ diagnostic.fault.message ++ "\n  --> " ++ path ++ ":" ++
    Text.decimal diagnostic.line ++ "\n" ++ (diagnostic.fault.help?.map helpLine).getD ""

/-- A line about a file that cannot be used. -/
def fileErrorLine (path message : String) : String :=
  "error: " ++ path ++ ": " ++ message ++ "\n"

/-! ## the command -/

/-- How a command ends. -/
inductive ExitStatus where
  /-- All is well. -/
  | success
  /-- The source has an error, or a warning that is not allowed. -/
  | rejected
  /-- A file cannot be read or written. -/
  | fileTrouble
  deriving Repr, DecidableEq

/-- The number a command ends with. -/
def ExitStatus.code : ExitStatus → Nat
  | success => 0
  | rejected => 1
  | fileTrouble => 2

/-- The files that a program is written to, with their contents and in order. -/
def outputs (options : Options) (program : Program) : List (String × String) :=
  [(options.output, program.objectText), (options.symbols, program.symbolListing),
    (options.literals, program.literalListing)]

/-- Write files one after another up to the first that fails. -/
def writeFiles [Monad m] (host : Host m) : List (String × String) → m (Except FileError Unit)
  | [] => return .ok ()
  | (path, contents) :: rest => do
    host.printOut (targetLine "Writing" path)
    match ← host.writeText path contents with
    | .error error => return .error error
    | .ok () => writeFiles host rest

/-- Whether a program fails: by an error, or by any diagnostic if warnings are denied. -/
def isRejected (options : Options) (program : Program) : Bool :=
  program.hasErrors || (options.denyWarnings && program.diagnostics ≠ [])

/-- Tell how the work ended. -/
def conclude [Monad m] (host : Host m) (options : Options) (program : Program) :
    m ExitStatus := do
  if isRejected options program then
    let count := Text.decimal program.diagnostics.length
    host.printOut (progressLine "Failed" ("with " ++ count ++ " diagnostic(s)"))
    return .rejected
  else
    host.printOut (targetLine "Finished" options.input)
    return .success

/-- Assemble a source text and write what comes of it. -/
def assembleSource [Monad m] (host : Host m) (options : Options) (registry : Registry)
    (source : String) : m ExitStatus := do
  host.printOut (targetLine "Assembling" options.input)
  let program :=
    if options.parallel then Program.assembleParallel registry source
    else Program.assemble registry source
  let events :=
    if options.verbosity = 0 then []
    else (Program.events registry source).filter (isLogged options.verbosity)
  host.printError (Program.unlines (events.map logLine))
  host.printError (String.join (program.diagnostics.map (diagnosticText options.input)))
  match ← writeFiles host (outputs options program) with
  | .error error =>
    host.printError ("error: " ++ error.message ++ "\n")
    return .fileTrouble
  | .ok () => conclude host options program

/-- Run the command. -/
def run [Monad m] (host : Host m) (options : Options) : m ExitStatus := do
  match Registry.load (← host.readText options.registry) with
  | .error error =>
    host.printError (fileErrorLine options.registry error.message ++ helpLine error.help)
    return .fileTrouble
  | .ok registry =>
    match ← host.readText options.input with
    | .error error =>
      host.printError (fileErrorLine options.input error.message)
      return .fileTrouble
    | .ok source => assembleSource host options registry source

end SicXe.CommandLine
