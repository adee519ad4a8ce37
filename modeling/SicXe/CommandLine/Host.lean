import SicXe.CommandLine.World

/-!
# SicXe.CommandLine.Host

What the command line needs of the system it runs on, and how the model of such a system
gives it.
-/

namespace SicXe.CommandLine

/-- The effects of a command. -/
structure Host (m : Type → Type) where
  /-- Read a text file. -/
  readText : (path : String) → m (Except FileError String)
  /-- Write a text file in place of what was there. -/
  writeText : (path contents : String) → m (Except FileError Unit)
  /-- Print to the standard output. -/
  printOut : String → m Unit
  /-- Print to the standard error output. -/
  printError : String → m Unit

/-- The effects of a command on a model world. -/
def Host.model : Host (StateM World) where
  readText path := do
    return (← get).readText path
  writeText path contents := do
    match (← get).writeText path contents with
    | .ok world => set world; return .ok ()
    | .error error => return .error error
  printOut text := modify fun world => { world with out := world.out ++ text }
  printError text := modify fun world => { world with error := world.error ++ text }

end SicXe.CommandLine
