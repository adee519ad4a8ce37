import SicXe.CommandLine.Run

/-!
# SicXe.Main

The assembler as a program.
-/

namespace SicXe

/-- What went wrong with a file, by the number the system gives it. -/
def fileErrorOfCode (text : String) : Nat → FileError
  | 2 => .notFound
  | 13 => .permissionDenied
  | 20 => .notDirectory
  | 21 => .isDirectory
  | 28 => .noSpace
  | 30 => .other "Read-only file system (os error 30)"
  | 36 => .nameTooLong
  | _ => .other text

/-- What went wrong with a file.  An error number comes with either sign, depending on whether
opening the file failed or using it; it is its distance from zero that counts. -/
def fileError (error : IO.Error) : FileError :=
  let number (code : UInt32) : Nat :=
    if code.toNat < 0x80000000 then code.toNat else 0x100000000 - code.toNat
  match error with
  | .noFileOrDirectory _ code _ | .inappropriateType _ code _ | .permissionDenied _ code _
  | .resourceExhausted _ code _ | .invalidArgument _ code _ | .otherError code _ =>
    fileErrorOfCode (toString error) (number code)
  | _ => .other (toString error)

/-- The effects of a command on the system the program runs on. -/
def systemHost : CommandLine.Host IO where
  readText path := do
    match ← (IO.FS.readBinFile path).toBaseIO with
    | .ok bytes => return Bytes.toText bytes.toList
    | .error error => return .error (fileError error)
  writeText path contents := do
    let write (handle : IO.FS.Handle) : IO Unit := do
      handle.putStr contents
      handle.flush
    match ← (IO.FS.withFile path .write write).toBaseIO with
    | .ok () => return .ok ()
    | .error error => return .error (fileError error)
  printOut text := do
    let out ← IO.getStdout
    out.putStr text
    out.flush
  printError := IO.eprint

end SicXe

/-- Run the assembler on the arguments of the command line. -/
def main (arguments : List String) : IO UInt32 := do
  match SicXe.CommandLine.Options.read arguments with
  | .error error =>
    IO.eprintln ("error: " ++ error.message)
    return 2
  | .ok options =>
    let status ← SicXe.CommandLine.run SicXe.systemHost options
    return UInt32.ofNat status.code
