import SicXe.Bytes

/-!
# SicXe.FileError

Why a file cannot be read or written.
-/

namespace SicXe

/-- Why a file cannot be read or written. -/
inductive FileError where
  /-- There is no such file, or no directory to put it in. -/
  | notFound
  /-- It is a directory. -/
  | isDirectory
  /-- It lies in what is not a directory. -/
  | notDirectory
  /-- Its path, or a name in its path, is too long. -/
  | nameTooLong
  /-- It may not be read, or not be written. -/
  | permissionDenied
  /-- There is no room for its contents. -/
  | noSpace
  /-- It does not hold text. -/
  | notText
  /-- Anything else, in the words of the system. -/
  | other (text : String)
  deriving Repr, DecidableEq

/-- The text of an error. -/
def FileError.message : FileError → String
  | notFound => "No such file or directory (os error 2)"
  | isDirectory => "Is a directory (os error 21)"
  | notDirectory => "Not a directory (os error 20)"
  | nameTooLong => "File name too long (os error 36)"
  | permissionDenied => "Permission denied (os error 13)"
  | noSpace => "No space left on device (os error 28)"
  | notText => "stream did not contain valid UTF-8"
  | other text => text

/-- The text that the bytes of a file hold, which has to be UTF-8. -/
def Bytes.toText (bytes : List UInt8) : Except FileError String :=
  match String.fromUTF8? (ByteArray.mk bytes.toArray) with
  | some text => .ok text
  | none => .error .notText

end SicXe
