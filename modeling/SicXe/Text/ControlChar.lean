/-!
# SicXe.Text.ControlChar

Characters that a terminal may take for a command, and a text that shows them instead.
-/

namespace SicXe.Text

/-- The single control characters that are shown by their code: bell, backspace, form feed,
escape and delete. -/
def shownControls : List Char :=
  ['\x07', '\x08', '\x0c', '\x1b', '\x7f']

/-- Whether a character is one of the 32 control characters behind the ASCII range. -/
def isUpperControl (c : Char) : Bool :=
  0x80 ≤ c.toNat && c.toNat ≤ 0x9f

/-- The digits of a code point in lower-case hexadecimal, two at least. -/
def codeDigits (code : Nat) : List Char :=
  let digits := Nat.toDigits 16 code
  List.replicate (2 - digits.length) '0' ++ digits

/-- A character, or its code if a terminal may take it for a command. -/
def showControl (c : Char) : List Char :=
  if shownControls.contains c then '\\' :: 'x' :: codeDigits c.toNat
  else if isUpperControl c then '\\' :: 'u' :: '\x7b' :: codeDigits c.toNat ++ ['\x7d']
  else [c]

/-- A text in which no character commands a terminal by itself. -/
def showControls (text : String) : String :=
  String.ofList (text.toList.flatMap showControl)

end SicXe.Text
