import SicXe.CommandLine.Path

/-!
# SicXe.CommandLine.World

A model of the system a command runs on: a tree of directories, files and devices, a working
directory in it, and what has been printed.

A place in the tree is the list of the names that lead to it, the innermost first, so the root
is the empty list and the directory around a place is its tail.  Reading and writing follow a
path step by step: a step can only be taken in a directory that is there.
-/

namespace SicXe.CommandLine

/-- A place in the tree: the names that lead there, the innermost first. -/
abbrev Place := List String

/-- What keeps nothing of what is written to it. -/
inductive Device where
  /-- Takes everything. -/
  | null
  /-- Has no room for anything. -/
  | full
  /-- Prints to the standard output. -/
  | standardOutput
  /-- Prints to the standard error output. -/
  | standardError
  deriving Repr, DecidableEq

/-- What may be done with a file. -/
structure Access where
  /-- It may be read. -/
  reads : Bool := true
  /-- It may be written. -/
  writes : Bool := true
  deriving Repr, DecidableEq

/-- What stands at a place.  Files have all the room they need; only a device can be full. -/
inductive Node where
  | directory
  | file (contents : List UInt8) (access : Access)
  | device (device : Device)
  deriving Repr, DecidableEq

/-- A tree of directories, and two outputs. -/
structure World where
  /-- What stands at each place, the root apart. -/
  nodes : List (Place × Node) := []
  /-- The working directory. -/
  working : Place := []
  /-- What was printed to the standard output. -/
  out : String := ""
  /-- What was printed to the standard error output. -/
  error : String := ""
  deriving Repr, DecidableEq

namespace World

/-! ## the tree -/

/-- What stands at a place; the root is always a directory. -/
def node? (world : World) (place : Place) : Option Node :=
  if place = [] then some .directory else world.nodes.lookup place

/-- The nodes with a new one at a place. -/
def setNodes (place : Place) (node : Node) : List (Place × Node) → List (Place × Node)
  | [] => [(place, node)]
  | entry :: rest =>
    if entry.1 = place then (place, node) :: rest else entry :: setNodes place node rest

/-- The world with a new node at a place. -/
def setNode (world : World) (place : Place) (node : Node) : World :=
  { world with nodes := setNodes place node world.nodes }

/-! ## following a path -/

/-- Where a path starts. -/
def start (world : World) (path : Path) : Place :=
  if path.fromRoot then [] else world.working

/-- Follow steps from a place.  Each step is taken in a directory; whether there is anything at
the last place is left open. -/
def walk (world : World) : Place → List Path.Step → Except FileError Place
  | place, [] => .ok place
  | place, step :: rest =>
    match world.node? place with
    | none => .error .notFound
    | some .directory =>
      match step with
      | .stay => walk world place rest
      | .up => walk world place.tail rest
      | .down name =>
        if (Bytes.ofText name).length > Path.maxNameLength then .error .nameTooLong
        else walk world (name :: place) rest
    | some _ => .error .notDirectory

/-! ## reading -/

/-- Read a device.  There is nothing in the null device.  The others are there to be written to and
count as files that may not be read: the full device would never end, and what comes from the two
outputs is up to whoever takes them. -/
def readDevice : Device → Except FileError (List UInt8)
  | .null => .ok []
  | _ => .error .permissionDenied

/-- Read what stands at the end of a path.  Only a directory may be called one by a slash at the
end. -/
def readPath (world : World) (path : Path) : Except FileError (List UInt8) :=
  match world.walk (world.start path) path.steps with
  | .error error => .error error
  | .ok place =>
    match world.node? place with
    | none => .error .notFound
    | some .directory => .error .isDirectory
    | some (.file contents access) =>
      if path.endsInSlash then .error .notDirectory
      else if access.reads then .ok contents
      else .error .permissionDenied
    | some (.device device) =>
      if path.endsInSlash then .error .notDirectory else readDevice device

/-- Read a text file. -/
def readText (world : World) (text : String) : Except FileError String :=
  match Path.read text with
  | .error error => .error error
  | .ok path =>
    match world.readPath path with
    | .error error => .error error
    | .ok bytes => Bytes.toText bytes

/-! ## writing -/

/-- Write a text to a device. -/
def writeDevice (world : World) (contents : String) : Device → Except FileError World
  | .null => .ok world
  | .full => if contents = "" then .ok world else .error .noSpace
  | .standardOutput => .ok { world with out := world.out ++ contents }
  | .standardError => .ok { world with error := world.error ++ contents }

/-- Write a text to a place, in place of what the file there held.  What may be done with a file
stays as it is, and a new file may be read and written. -/
def writePlace (world : World) (place : Place) (contents : String) : Except FileError World :=
  match world.node? place with
  | some .directory => .error .isDirectory
  | some (.device device) => world.writeDevice contents device
  | some (.file _ access) =>
    if access.writes then .ok (world.setNode place (.file (Bytes.ofText contents) access))
    else .error .permissionDenied
  | none => .ok (world.setNode place (.file (Bytes.ofText contents) {}))

/-- Write a text to the end of a path.  No file is made where a slash at the end asks for a
directory, once the way there is clear. -/
def writePath (world : World) (path : Path) (contents : String) : Except FileError World :=
  if path.endsInSlash then
    match world.walk (world.start path) path.stepsAround with
    | .error error => .error error
    | .ok _ => .error .isDirectory
  else
    match world.walk (world.start path) path.steps with
    | .error error => .error error
    | .ok place => world.writePlace place contents

/-- Write a text file. -/
def writeText (world : World) (text contents : String) : Except FileError World :=
  match Path.read text with
  | .error error => .error error
  | .ok path => world.writePath path contents

/-! ## making a world -/

/-- Make the directories that lead from a place along steps, and tell where they end. -/
def makeAlong (world : World) : Place → List Path.Step → World × Place
  | place, [] => (world, place)
  | place, .stay :: rest => makeAlong world place rest
  | place, .up :: rest => makeAlong world place.tail rest
  | place, .down name :: rest =>
    let next := name :: place
    match world.node? next with
    | some _ => makeAlong world next rest
    | none => makeAlong (world.setNode next .directory) next rest

/-- Make a directory and those it lies in. -/
def addDirectory (world : World) (text : String) : World :=
  let path := Path.ofText text
  (world.makeAlong (world.start path) path.steps).1

/-- Make a file and the directories it lies in. -/
def addFile (world : World) (text : String) (contents : List UInt8) (access : Access := {}) :
    World :=
  let path := Path.ofText text
  let around := world.makeAlong (world.start path) path.steps.dropLast
  match path.steps.getLast? with
  | some (.down name) => around.1.setNode (name :: around.2) (.file contents access)
  | _ => around.1

/-- A world with the usual devices, and nothing in its working directory. -/
def fresh : World :=
  { nodes :=
      [(["dev"], .directory), (["null", "dev"], .device .null), (["full", "dev"], .device .full),
        (["stdin", "dev"], .device .null), (["stdout", "dev"], .device .standardOutput),
        (["stderr", "dev"], .device .standardError), (["tmp"], .directory),
        (["work", "tmp"], .directory)]
    working := ["work", "tmp"] }

/-- The contents of the files in the working directory, by name. -/
def workingFiles (world : World) : List (String × List UInt8) :=
  world.nodes.filterMap fun
    | (name :: around, .file contents _) =>
      if around = world.working then some (name, contents) else none
    | _ => none

end World

end SicXe.CommandLine
