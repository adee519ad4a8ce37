import SicXe.FileError
import SicXe.Registry

/-!
# SicXe.Registry.Load

A registry that is kept in a file.
-/

namespace SicXe

/-- Why there is no registry to be had from a file. -/
inductive LoadError where
  /-- The file cannot be read. -/
  | unreadable (error : FileError)
  /-- The file does not hold a registry. -/
  | malformed (error : RegistryError)
  deriving Repr, DecidableEq

namespace LoadError

/-- The text of an error. -/
def message : LoadError → String
  | unreadable error => "cannot read instruction specification: " ++ error.message
  | malformed error => error.message

/-- How an error can be mended. -/
def help : LoadError → String
  | unreadable _ => "check the path given for the instruction specification"
  | malformed error => error.help

/-- The line of the registry an error is about, if it is about one. -/
def line? : LoadError → Option Nat
  | unreadable _ => none
  | malformed error => some error.line

/-- The text of the error behind an error, if there is one. -/
def cause? : LoadError → Option String
  | unreadable error => some error.message
  | malformed _ => none

end LoadError

/-- The registry of a file, given what reading the file came to. -/
def Registry.load (contents : Except FileError String) : Except LoadError Registry :=
  match contents with
  | .error error => .error (.unreadable error)
  | .ok text =>
    match Registry.read text with
    | .error error => .error (.malformed error)
    | .ok registry => .ok registry

end SicXe
