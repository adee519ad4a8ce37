/-!
# SicXe.CommandLine.Options

The arguments of the command line.

An option that takes a file is written `--option file` or `--option=file`; the output file has
the short form `-o`.  `-v` may be repeated, also within one argument.  Every other option may
be given once.
-/

namespace SicXe.CommandLine

/-- What the command line asks for. -/
structure Options where
  /-- The source file. -/
  input : String := "input.txt"
  /-- The registry of instructions. -/
  registry : String := "inst.data"
  /-- Where the object records go. -/
  output : String := "output_0000"
  /-- Where the symbols go. -/
  symbols : String := "symtab_0000"
  /-- Where the literals go. -/
  literals : String := "literaltab_0000"
  /-- Whether each section has its own worker. -/
  parallel : Bool := false
  /-- How much is told of the assembler at work. -/
  verbosity : Nat := 0
  /-- Whether a warning counts as a failure. -/
  denyWarnings : Bool := false
  deriving Repr, DecidableEq

/-- Why the arguments cannot be used. -/
inductive UsageError where
  /-- There is no such option. -/
  | unknownOption (argument : String)
  /-- The option has no value. -/
  | missingValue (argument : String)
  /-- The option takes no value. -/
  | unexpectedValue (argument : String)
  /-- The option was given before. -/
  | repeated (argument : String)
  /-- There is already a source file. -/
  | extraArgument (argument : String)
  deriving Repr, DecidableEq

/-- The text of an error. -/
def UsageError.message : UsageError → String
  | unknownOption argument => "unexpected argument '" ++ argument ++ "' found"
  | missingValue argument => "a value is required for '" ++ argument ++ "' but none was supplied"
  | unexpectedValue argument => "unexpected value for '" ++ argument ++ "' found"
  | repeated argument => "the argument '" ++ argument ++ "' cannot be used multiple times"
  | extraArgument argument => "unexpected argument '" ++ argument ++ "' found"

namespace Options

/-- What the arguments have given so far. -/
structure Given where
  input : Option String := none
  registry : Option String := none
  output : Option String := none
  symbols : Option String := none
  literals : Option String := none
  parallel : Bool := false
  verbosity : Nat := 0
  denyWarnings : Bool := false
  deriving Repr, DecidableEq

/-- The options that take a file. -/
inductive FileOption where
  | registry | output | symbols | literals
  deriving Repr, DecidableEq

/-- The option that takes a file of a long name. -/
def FileOption.ofName? : String → Option FileOption
  | "--inst" => some registry
  | "--output" => some output
  | "--symtab" => some symbols
  | "--littab" => some literals
  | _ => none

/-- Set a field that may be set once, to something that is not empty. -/
def setOnce (argument : String) (old : Option String) (value : String) :
    Except UsageError (Option String) :=
  if value = "" then .error (.missingValue argument)
  else match old with
    | some _ => .error (.repeated argument)
    | none => .ok (some value)

/-- Set the file of an option. -/
def Given.setFile (given : Given) (argument value : String) :
    FileOption → Except UsageError Given
  | .registry =>
    (setOnce argument given.registry value).map fun registry => { given with registry }
  | .output => (setOnce argument given.output value).map fun output => { given with output }
  | .symbols => (setOnce argument given.symbols value).map fun symbols => { given with symbols }
  | .literals =>
    (setOnce argument given.literals value).map fun literals => { given with literals }

/-- Set the source file. -/
def Given.setInput (given : Given) (argument : String) : Except UsageError Given :=
  if argument = "" then .error (.missingValue "[INPUT]")
  else match given.input with
    | some _ => .error (.extraArgument argument)
    | none => .ok { given with input := some argument }

/-- Set a flag by its long name. -/
def Given.setFlag (given : Given) (argument : String) : Except UsageError Given :=
  if argument = "--parallel" then
    if given.parallel then .error (.repeated argument) else .ok { given with parallel := true }
  else if argument = "--deny-warnings" then
    if given.denyWarnings then .error (.repeated argument)
    else .ok { given with denyWarnings := true }
  else .error (.unknownOption argument)

/-- Read the short options of one argument.  The second component is the value that stands
behind `-o`, if the argument ends with that option. -/
def Given.readShort (argument : String) :
    Given → List Char → Except UsageError (Given × Option String)
  | given, [] => .ok (given, none)
  | given, 'v' :: rest =>
    Given.readShort argument { given with verbosity := given.verbosity + 1 } rest
  | given, 'o' :: '=' :: value => .ok (given, some (String.ofList value))
  | given, 'o' :: value => .ok (given, some (String.ofList value))
  | _, _ => .error (.unknownOption argument)

/-- Whether an argument looks like an option; a single hyphen does not. -/
def looksLikeOption (argument : String) : Bool :=
  match argument.toList with
  | '-' :: _ :: _ => true
  | _ => false

/-- Read arguments behind `--`, none of which is an option. -/
def Given.readPlain : Given → List String → Except UsageError Given
  | given, [] => .ok given
  | given, argument :: rest =>
    match given.setInput argument with
    | .error error => .error error
    | .ok given => given.readPlain rest

/-- A long option cut at its first equals sign. -/
def cutValue (argument : String) : String × Option String :=
  let cs := argument.toList
  match cs.dropWhile (· != '=') with
  | [] => (argument, none)
  | _ :: value => (String.ofList (cs.takeWhile (· != '=')), some (String.ofList value))

/-- What one argument comes to. -/
inductive Step where
  /-- It is complete by itself. -/
  | done (given : Given)
  /-- The next argument is the file of an option. -/
  | needsFile (given : Given) (argument : String) (option : FileOption)
  /-- All arguments behind it are plain. -/
  | plainFromHere (given : Given)

/-- Read one argument. -/
def Given.readArgument (given : Given) (argument : String) : Except UsageError Step :=
  match argument.toList with
  | ['-', '-'] => .ok (.plainFromHere given)
  | '-' :: '-' :: _ =>
    let (name, value) := cutValue argument
    match FileOption.ofName? name, value with
    | some option, some value => (given.setFile name value option).map .done
    | some option, none => .ok (.needsFile given name option)
    | none, none => (given.setFlag name).map .done
    | none, some _ =>
      match given.setFlag name with
      | .error (.unknownOption _) => .error (.unknownOption argument)
      | _ => .error (.unexpectedValue name)
  | '-' :: short :: shorts =>
    match given.readShort argument (short :: shorts) with
    | .error error => .error error
    | .ok (given, none) => .ok (.done given)
    | .ok (given, some "") => .ok (.needsFile given "-o" .output)
    | .ok (given, some value) => (given.setFile "-o" value .output).map .done
  | _ => (given.setInput argument).map .done

/-- Read the arguments from left to right; `awaiting` is the option that the next one belongs
to. -/
def Given.readAll : Given → (awaiting : Option (String × FileOption)) → List String →
    Except UsageError Given
  | given, none, [] => .ok given
  | _, some (option, _), [] => .error (.missingValue option)
  | given, some (name, option), argument :: rest =>
    if looksLikeOption argument then .error (.missingValue name)
    else match given.setFile name argument option with
      | .error error => .error error
      | .ok given => given.readAll none rest
  | given, none, argument :: rest =>
    match given.readArgument argument with
    | .error error => .error error
    | .ok (.done given) => given.readAll none rest
    | .ok (.needsFile given name option) => given.readAll (some (name, option)) rest
    | .ok (.plainFromHere given) => given.readPlain rest

/-- What was given, with the usual files in place of those that were not. -/
def ofGiven (given : Given) : Options :=
  let usual : Options := {}
  { input := given.input.getD usual.input
    registry := given.registry.getD usual.registry
    output := given.output.getD usual.output
    symbols := given.symbols.getD usual.symbols
    literals := given.literals.getD usual.literals
    parallel := given.parallel
    verbosity := given.verbosity
    denyWarnings := given.denyWarnings }

/-- Read the arguments of the command line. -/
def read (arguments : List String) : Except UsageError Options :=
  (Given.readAll {} none arguments).map ofGiven

end Options

end SicXe.CommandLine
