/-!
# SicXe.Text.Numeral

Reading and printing numbers.  Reading takes ASCII digits only and is bounded: the first
character that is no digit, or that takes the value over the bound, decides how it fails.
-/

namespace SicXe.Text

/-! ## reading -/

/-- The value of an ASCII digit, with `a` to `z` in either case after the ten figures. -/
def digitValue (c : Char) : Option Nat :=
  if '0' ≤ c ∧ c ≤ '9' then some (c.toNat - 48)
  else if 'a' ≤ c ∧ c ≤ 'z' then some (c.toNat - 87)
  else if 'A' ≤ c ∧ c ≤ 'Z' then some (c.toNat - 55)
  else none

/-- The value of a digit of the given base. -/
def digitValue? (base : Nat) (c : Char) : Option Nat :=
  (digitValue c).filter (· < base)

/-- Whether a character is a digit of the given base. -/
def isDigitOf (base : Nat) (c : Char) : Bool :=
  (digitValue? base c).isSome

/-- Why a text is not a number below the bound. -/
inductive NumeralError where
  /-- The text has no digit at all. -/
  | empty
  /-- A character is not a digit of the base. -/
  | badDigit
  /-- The value reaches the bound. -/
  | tooLarge
  deriving Repr, DecidableEq

/-- Read the remaining digits onto a value already read. -/
def readDigits (base bound : Nat) : Nat → List Char → Except NumeralError Nat
  | value, [] => .ok value
  | value, c :: cs =>
    match digitValue? base c with
    | none => .error .badDigit
    | some d =>
      if value * base + d < bound then readDigits base bound (value * base + d) cs
      else .error .tooLarge

/-- Read a number below `bound` written in `base`. -/
def readNumeral (base bound : Nat) (cs : List Char) : Except NumeralError Nat :=
  if cs = [] then .error .empty else readDigits base bound 0 cs

/-- Read a number below `bound` which may have one plus sign in front. -/
def readUnsigned (base bound : Nat) : List Char → Except NumeralError Nat
  | '+' :: cs => readNumeral base bound cs
  | cs => readNumeral base bound cs

/-! ## printing -/

/-- The decimal digits of a number. -/
def decimal (n : Nat) : String :=
  String.ofList (Nat.toDigits 10 n)

/-- A number in decimal, with a minus sign in front if it is negative. -/
def signedDecimal : Int → String
  | .ofNat n => decimal n
  | .negSucc n => "-" ++ decimal (n + 1)

/-- The digits of a number in upper-case hexadecimal, with no leading zero. -/
def hexDigits (n : Nat) : List Char :=
  (Nat.toDigits 16 n).map Char.toUpper

/-- A number in upper-case hexadecimal. -/
def hex (n : Nat) : String :=
  String.ofList (hexDigits n)

/-- A number in upper-case hexadecimal, filled up with zeros to a width and never cut. -/
def hexPadded (width n : Nat) : String :=
  let digits := hexDigits n
  String.ofList (List.replicate (width - digits.length) '0' ++ digits)

/-- A name filled up with spaces to a width in characters, and never cut. -/
def padRight (width : Nat) (name : String) : String :=
  String.ofList (name.toList ++ List.replicate (width - name.toList.length) ' ')

/-- A word moved to the right end of a width in characters, and never cut. -/
def padLeft (width : Nat) (word : String) : String :=
  String.ofList (List.replicate (width - word.toList.length) ' ' ++ word.toList)

end SicXe.Text
