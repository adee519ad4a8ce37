import SicXe.Text.DecimalDigit
import SicXe.Text.WordChar
import SicXe.Token

/-!
# SicXe.Token.Scan

Cutting an operand field into lexemes.

A lexeme is the longest piece of the field that some kind of token claims; spaces and tabs
between lexemes are passed over.  A lexeme that turns out to be no token keeps the reason, and
scanning goes on behind it.  Scanning walks the characters once and counts how many of them the
lexeme in hand still covers, so it is structural on the field.
-/

namespace SicXe

/-- A piece of an operand field. -/
structure Lexeme where
  /-- The spaces and tabs passed over in front of the piece. -/
  gap : List Char
  /-- The characters of the piece. -/
  text : List Char
  /-- The token the piece stands for, or why it stands for none. -/
  reading : Except LexicalError Token

namespace Lexeme

/-! ## the kinds of lexeme -/

/-- Whether a character separates lexemes. -/
def isGap (c : Char) : Bool :=
  c == ' ' || c == '\t'

/-- Whether a character starts a name. -/
def startsName (c : Char) : Bool :=
  c.isAlpha || c == '_'

/-- Whether a letter in front of a quote starts a constant. -/
def startsConstant (c : Char) : Bool :=
  c == 'C' || c == 'c' || c == 'X' || c == 'x'

/-- The token of a character that is a token by itself. -/
def mark? : Char → Option Token
  | '#' => some .hash
  | '@' => some .atSign
  | '=' => some .equals
  | '*' => some .star
  | '-' => some .minus
  | ',' => some .comma
  | _ => none

/-- Read a word of the machine.  Digits are read into 32 bits: a text that outgrows them is too
large even if a later character is no digit, and a text that does not must be all digits. -/
def readWord (base : Nat) (notDigits : LexicalError) (digits : List Char) :
    Except LexicalError Nat :=
  match Text.readNumeral base 0x100000000 digits with
  | .ok value => if value < wordSize then .ok value else .error .exceedsWord
  | .error .tooLarge => .error .exceedsWord
  | .error _ => .error notDigits

/-- Read what stands between the quotes of a constant of the given letter. -/
def readConstant (letter : Char) (body : List Char) : Except LexicalError Constant :=
  if body = [] then .error .emptyConstant
  else if letter.toUpper = 'C' then .ok (.chars (String.ofList body))
  else if !body.all (Text.isDigitOf 16) then .error .invalidHex
  else match Bytes.ofHexDigits? body with
    | none => .error .oddHexDigits
    | some bytes => .ok (.hex bytes)

/-- The text and the reading of a constant, given its letter and what follows its opening quote.
Without a closing quote it takes everything. -/
def takeConstant (letter : Char) (rest : List Char) : List Char × Except LexicalError Token :=
  let body := rest.takeWhile (· != '\'')
  if body.length = rest.length then (letter :: '\'' :: rest, .error .unclosedConstant)
  else (letter :: '\'' :: (body ++ ['\'']), (readConstant letter body).map .constant)

/-- The text and the reading of a name, given its first character and what follows. -/
def takeName (c : Char) (rest : List Char) : List Char × Except LexicalError Token :=
  let text := c :: rest.takeWhile Text.isWordChar
  (text, .ok (.name (String.ofList text)))

/-- The text and the reading of the lexeme that starts with `c`, which is no gap, when `rest`
follows it. -/
def take (c : Char) (rest : List Char) : List Char × Except LexicalError Token :=
  if Text.isDecimalDigit c then
    let text := c :: rest.takeWhile Text.isWordChar
    (text, (readWord 10 .invalidNumber text).map .number)
  else if startsName c then
    match rest with
    | '\'' :: body => if startsConstant c then takeConstant c body else takeName c rest
    | _ => takeName c rest
  else match c, rest with
    | '=', d :: more =>
      if Text.isDecimalDigit d then
        let digits := d :: more.takeWhile Text.isWordChar
        ('=' :: digits, (readWord 16 .invalidHex digits).map .literalWord)
      else (['='], .ok .equals)
    | c, _ =>
      match mark? c with
      | some token => ([c], .ok token)
      | none => ([c], .error .invalidSymbol)

/-! ## scanning -/

/-- Scan a field of which `covered` characters belong to the lexeme just taken and the
characters of `passed`, the last one first, have been passed over since. -/
def scanFrom : (covered : Nat) → (passed : List Char) → List Char → List Lexeme
  | _, _, [] => []
  | covered + 1, passed, _ :: rest => scanFrom covered passed rest
  | 0, passed, c :: rest =>
    if isGap c then scanFrom 0 (c :: passed) rest
    else
      let taken := take c rest
      ⟨passed.reverse, taken.1, taken.2⟩ :: scanFrom (taken.1.length - 1) [] rest

/-- The lexemes of an operand field. -/
def scan (field : List Char) : List Lexeme :=
  scanFrom 0 [] field

/-! ## places -/

/-- How many bytes a text takes in UTF-8. -/
def byteLength : List Char → Nat
  | [] => 0
  | c :: rest => c.utf8Size + byteLength rest

/-- Where each lexeme starts and ends, in bytes from the start of the field, when the first
gap starts at `offset`. -/
def spansFrom : (offset : Nat) → List Lexeme → List (Nat × Nat)
  | _, [] => []
  | offset, lexeme :: rest =>
    let start := offset + byteLength lexeme.gap
    let stop := start + byteLength lexeme.text
    (start, stop) :: spansFrom stop rest

/-- Where each lexeme of a field starts and ends, in bytes. -/
def spans (lexemes : List Lexeme) : List (Nat × Nat) :=
  spansFrom 0 lexemes

end Lexeme

end SicXe
