import SicXe.Proofs.HexNumeral
import SicXe.Proofs.WrittenLiteral
import SicXe.Text.Blank

/-!
# SicXe.Proofs.TokenText

Reading back the text of tokens.

A token is taken from its text again if what follows cannot be held for a part of it: a word must
not go on, a name must not run into a quote, and an equals sign must not stand before a digit
(`Token.EndsBefore`).  Tokens that are printed one behind another are then scanned apart where they
were put together (`scan_tokens`), whatever comes behind them.
-/

namespace SicXe

namespace Token

/-- A token as it is printed. -/
def print : Token → List Char
  | number value => Nat.toDigits 10 value
  | name text => text.toList
  | constant value => value.text.toList
  | literalWord value => '=' :: Text.hexDigits value
  | hash => ['#']
  | atSign => ['@']
  | equals => ['=']
  | star => ['*']
  | minus => ['-']
  | comma => [',']

/-- What a token is that has been taken from a field. -/
def Readable : Token → Prop
  | number value => value < wordSize
  | name text => ∃ c rest, text.toList = c :: rest ∧ Lexeme.startsName c = true ∧
      ∀ d ∈ rest, Text.isWordChar d = true
  | token => token.Written

/-- Whether the text of a token ends where it should when `rest` follows it.  A word literal that
starts with a letter is no word literal, whatever follows. -/
def EndsBefore (rest : List Char) : Token → Prop
  | number _ => ∀ c ∈ rest.head?, Text.isWordChar c = false
  | name _ => ∀ c ∈ rest.head?, Text.isWordChar c = false ∧ c ≠ '\''
  | literalWord value =>
    Text.leadingHexDigit value ≤ 9 ∧ ∀ c ∈ rest.head?, Text.isWordChar c = false
  | equals => ∀ c ∈ rest.head?, Text.isDecimalDigit c = false
  | _ => True

/-- Whether the texts of tokens one behind another end where they should when `rest` follows. -/
def Apart (rest : List Char) : List Token → Prop
  | [] => True
  | token :: others => token.EndsBefore (others.flatMap print ++ rest) ∧ Apart rest others

end Token

namespace Lexeme

/-! ## taken tokens -/

/-- **Taken tokens are readable**: a lexeme stands for a number that fits in a word, for a name
made of word characters, or for a token that can make a literal. -/
theorem readable_of_take {c : Char} {rest : List Char} {token : Token}
    (h : (take c rest).2 = .ok token) : token.Readable := by
  have hwritten := written_of_take h
  have htaken := taken_take c rest
  generalize take c rest = taken at htaken h
  cases htaken with
  | number =>
      obtain ⟨value, hread, rfl⟩ := exists_of_map_eq_ok h
      exact lt_of_readWord hread
  | name hletter =>
      cases h
      refine ⟨c, rest.takeWhile Text.isWordChar, String.toList_ofList, hletter, ?_⟩
      exact List.all_eq_true.mp List.all_takeWhile
  | constant body =>
      unfold takeConstant at h
      dsimp only at h
      split at h
      · cases h
      · obtain ⟨value, -, rfl⟩ := exists_of_map_eq_ok h
        exact hwritten
  | literalWord =>
      obtain ⟨value, -, rfl⟩ := exists_of_map_eq_ok h
      exact hwritten
  | mark mark hmark =>
      cases h
      unfold mark? at hmark
      split at hmark <;> cases hmark <;> trivial
  | stray => cases h

/-! ## where a lexeme ends -/

theorem takeWhile_append_eq {p : Char → Bool} {body rest : List Char}
    (hbody : ∀ c ∈ body, p c = true) (hrest : ∀ c ∈ rest.head?, p c = false) :
    (body ++ rest).takeWhile p = body := by
  rw [List.takeWhile_append_of_pos hbody]
  cases rest with
  | nil => simp
  | cons c more => simp [hrest c rfl]

theorem isGap_of_isBlank {c : Char} (h : Text.isBlank c = false) : isGap c = false := by
  cases hgap : isGap c with
  | false => rfl
  | true =>
      simp only [isGap, Bool.or_eq_true, beq_iff_eq] at hgap
      rcases hgap with rfl | rfl
      · exact absurd h (by decide)
      · exact absurd h (by decide)

/-- A character that starts a name starts no number and is no blank. -/
theorem isDecimalDigit_of_startsName {c : Char} (h : startsName c = true) :
    Text.isDecimalDigit c = false ∧ Text.isBlank c = false := by
  have hascii : c.toNat < 128 := by
    delta startsName Char.isAlpha Char.isUpper Char.isLower at h
    simp only [Bool.or_eq_true, Bool.and_eq_true, decide_eq_true_eq, beq_iff_eq] at h
    rcases h with (⟨-, hle⟩ | ⟨-, hle⟩) | rfl
    · exact Nat.lt_of_le_of_lt (UInt32.le_iff_toNat_le.mp hle) (by decide)
    · exact Nat.lt_of_le_of_lt (UInt32.le_iff_toNat_le.mp hle) (by decide)
    · decide
  have hall : ∀ code < 128, startsName (Char.ofNat code) = true →
      Text.isDecimalDigit (Char.ofNat code) = false ∧ Text.isBlank (Char.ofNat code) = false := by
    decide
  have hthis := hall c.toNat hascii
  rw [Char.ofNat_toNat] at hthis
  exact hthis h

section
variable {rest : List Char}

/-- A decimal digit starts a number, which goes on as long as there are characters of a word. -/
theorem take_number {c : Char} (hdigit : Text.isDecimalDigit c = true) :
    take c rest = (c :: rest.takeWhile Text.isWordChar,
      (readWord 10 .invalidNumber (c :: rest.takeWhile Text.isWordChar)).map .number) := by
  unfold take
  exact if_pos hdigit

/-- A letter starts a name, unless a quote makes it the letter of a constant. -/
theorem take_name {c : Char} (hletter : startsName c = true) (hquote : rest.head? ≠ some '\'') :
    take c rest = takeName c rest := by
  unfold take
  dsimp only
  rw [if_neg (by rw [(isDecimalDigit_of_startsName hletter).1]; decide), if_pos hletter]
  split
  · exact absurd rfl hquote
  · rfl

/-- The letters `C` and `X` before a quote start a constant. -/
theorem take_constant {letter : Char} (h : letter = 'C' ∨ letter = 'X') :
    take letter ('\'' :: rest) = takeConstant letter rest := by
  rcases h with rfl | rfl
  · rfl
  · rfl

/-- An equals sign starts a literal word before a digit, and is a token of its own before all else.
-/
theorem take_equals (d : Char) :
    take '=' (d :: rest) =
      if Text.isDecimalDigit d then
        ('=' :: d :: rest.takeWhile Text.isWordChar,
          (readWord 16 .invalidHex (d :: rest.takeWhile Text.isWordChar)).map .literalWord)
      else (['='], .ok .equals) := rfl

/-- A constant ends with its closing quote. -/
theorem takeConstant_append {letter : Char} {body : List Char} {value : Constant}
    (hquote : '\'' ∉ body) (hread : readConstant letter body = .ok value) :
    takeConstant letter (body ++ '\'' :: rest) =
      (letter :: '\'' :: (body ++ ['\'']), .ok (.constant value)) := by
  have hbody : (body ++ '\'' :: rest).takeWhile (· != '\'') = body := by
    apply takeWhile_append_eq
    · intro c hc
      simp only [bne_iff_ne, ne_eq]
      rintro rfl
      exact hquote hc
    · simp
  rw [takeConstant, hbody, if_neg (by simp), hread]
  rfl

end

/-! ## reading what is printed -/

theorem readConstant_chars {body : String} (h : body.toList ≠ []) :
    readConstant 'C' body.toList = .ok (.chars body) := by
  rw [readConstant, if_neg h, if_pos (by decide), String.ofList_toList]

/-- The pairs of digits of some bytes are read as those bytes. -/
theorem readConstant_hex {contents : List UInt8} (h : contents ≠ []) :
    readConstant 'X' (contents.flatMap Bytes.hexPair) = .ok (.hex contents) := by
  have hread := Bytes.ofHexDigits?_flatMap_hexPair contents
  have hne : contents.flatMap Bytes.hexPair ≠ [] := by
    intro hnil
    rw [hnil] at hread
    exact h (Option.some.inj hread).symm
  have hdigits : (contents.flatMap Bytes.hexPair).all (Text.isDigitOf 16) = true := by
    rw [List.all_eq_true]
    intro c hc
    obtain ⟨byte, -, hpair⟩ := List.mem_flatMap.mp hc
    exact Bytes.isDigitOf_of_mem_hexPair hpair
  rw [readConstant, if_neg hne, if_neg (by decide), hdigits, hread]
  rfl

/-- The text of a constant: a letter, and a body between quotes that is read as the constant. -/
theorem exists_text_constant {value : Constant} (h : value.Written) :
    ∃ letter body, (letter = 'C' ∨ letter = 'X') ∧ '\'' ∉ body ∧
      readConstant letter body = .ok value ∧
      value.text.toList = letter :: '\'' :: (body ++ ['\'']) := by
  cases value with
  | chars body =>
      refine ⟨'C', body.toList, Or.inl rfl, h.2, readConstant_chars h.1, ?_⟩
      simp [Constant.text]
  | hex contents =>
      refine ⟨'X', contents.flatMap Bytes.hexPair, Or.inr rfl, ?_, readConstant_hex h, ?_⟩
      · intro hquote
        obtain ⟨byte, -, hpair⟩ := List.mem_flatMap.mp hquote
        exact absurd (Bytes.isDigitOf_of_mem_hexPair hpair) (by decide)
      · simp [Constant.text, Bytes.toHex]

/-- The text of a number in hexadecimal behind its leading digit goes on with word characters. -/
theorem exists_hexDigits_eq (n : Nat) :
    ∃ more, Text.hexDigits n = Text.hexDigit (Text.leadingHexDigit n) :: more ∧
      ∀ c ∈ more, Text.isWordChar c = true := by
  obtain ⟨more, hdigits⟩ := List.head?_eq_some_iff.mp (Text.head?_hexDigits n)
  refine ⟨more, hdigits, fun c hc => ?_⟩
  have hmem : c ∈ Text.hexDigits n := by
    rw [hdigits]
    exact List.mem_cons_of_mem _ hc
  obtain ⟨d, hd, rfl⟩ := Text.exists_hexDigit_of_mem hmem
  exact Text.isWordChar_hexDigit d hd

/-- A numeral below the bound of a word is read as its value. -/
theorem readWord_of_readNumeral {base value : Nat} {notDigits : LexicalError} {digits : List Char}
    (hread : Text.readNumeral base 0x100000000 digits = .ok value) (hvalue : value < wordSize) :
    readWord base notDigits digits = .ok value := by
  rw [readWord, hread]
  exact if_pos hvalue

section
variable {rest : List Char}

/-- A number in print is taken whole, if what stands behind it is no part of a number. -/
theorem take_print_number {value : Nat} (hvalue : value < wordSize)
    (hends : (Token.number value).EndsBefore rest) :
    ∃ c tail, (Token.number value).print = c :: tail ∧ Text.isBlank c = false ∧
      take c (tail ++ rest) = (c :: tail, .ok (.number value)) := by
  have hfigures : ∀ d < 10, Text.isDecimalDigit d.digitChar = true ∧
      Text.isWordChar d.digitChar = true ∧ Text.isBlank d.digitChar = false := by decide
  have hdigits : ∀ c ∈ Nat.toDigits 10 value, Text.isDecimalDigit c = true ∧
      Text.isWordChar c = true ∧ Text.isBlank c = false := by
    intro c hc
    obtain ⟨d, hd, rfl⟩ := Text.exists_digit_of_mem (by decide) hc
    exact hfigures d hd
  have hread : readWord 10 .invalidNumber (Nat.toDigits 10 value) = .ok value :=
    readWord_of_readNumeral (Text.readNumeral_decimal (Nat.lt_trans hvalue (by decide))) hvalue
  obtain ⟨c, tail, hprint⟩ := List.exists_cons_of_ne_nil
    (Nat.toDigits_ne_nil : Nat.toDigits 10 value ≠ [])
  rw [hprint] at hdigits hread
  have hwhole : (tail ++ rest).takeWhile Text.isWordChar = tail :=
    takeWhile_append_eq (fun d hd => (hdigits d (List.mem_cons_of_mem _ hd)).2.1) hends
  obtain ⟨hdigit, -, hblank⟩ := hdigits c List.mem_cons_self
  refine ⟨c, tail, hprint, hblank, ?_⟩
  rw [take_number hdigit, hwhole, hread]
  rfl

/-- So is a name. -/
theorem take_print_name {text : String} (hreadable : (Token.name text).Readable)
    (hends : (Token.name text).EndsBefore rest) :
    ∃ c tail, (Token.name text).print = c :: tail ∧ Text.isBlank c = false ∧
      take c (tail ++ rest) = (c :: tail, .ok (.name text)) := by
  obtain ⟨c, tail, htext, hletter, htail⟩ := hreadable
  have hwhole : (tail ++ rest).takeWhile Text.isWordChar = tail :=
    takeWhile_append_eq htail fun d hd => (hends d hd).1
  have hquote : (tail ++ rest).head? ≠ some '\'' := by
    intro hhead
    cases tail with
    | nil => exact (hends '\'' hhead).2 rfl
    | cons d more =>
        cases hhead
        exact absurd (htail '\'' List.mem_cons_self) (by decide)
  refine ⟨c, tail, htext, (isDecimalDigit_of_startsName hletter).2, ?_⟩
  rw [take_name hletter hquote, takeName, hwhole, ← htext, String.ofList_toList]

/-- So is a constant. -/
theorem take_print_constant {value : Constant} (hwritten : value.Written) :
    ∃ c tail, (Token.constant value).print = c :: tail ∧ Text.isBlank c = false ∧
      take c (tail ++ rest) = (c :: tail, .ok (.constant value)) := by
  obtain ⟨letter, body, hletter, hquote, hread, htext⟩ := exists_text_constant hwritten
  refine ⟨letter, '\'' :: (body ++ ['\'']), htext, ?_, ?_⟩
  · rcases hletter with rfl | rfl <;> decide
  · rw [List.cons_append, List.append_assoc, take_constant hletter]
    exact takeConstant_append hquote hread

/-- So is a literal word, if its first digit is a decimal one. -/
theorem take_print_literalWord {value : Nat} (hvalue : value < wordSize)
    (hends : (Token.literalWord value).EndsBefore rest) :
    take '=' (Text.hexDigits value ++ rest) =
      ('=' :: Text.hexDigits value, .ok (.literalWord value)) := by
  obtain ⟨hlead, hrest⟩ := hends
  obtain ⟨more, hdigits, hword⟩ := exists_hexDigits_eq value
  have hfigure : Text.isDecimalDigit (Text.hexDigit (Text.leadingHexDigit value)) = true := by
    rw [Text.isDecimalDigit_hexDigit _ (Text.leadingHexDigit_lt value)]
    exact decide_eq_true hlead
  have hread : readWord 16 .invalidHex (Text.hexDigits value) = .ok value :=
    readWord_of_readNumeral (Text.readNumeral_hexDigits (Nat.lt_trans hvalue (by decide))) hvalue
  rw [hdigits] at hread ⊢
  rw [List.cons_append, take_equals, if_pos hfigure, takeWhile_append_eq hword hrest, hread]
  rfl

theorem take_print_equals (hends : Token.equals.EndsBefore rest) :
    take '=' rest = (['='], .ok .equals) := by
  cases rest with
  | nil => rfl
  | cons d more => rw [take_equals, hends d rfl]; rfl

/-- **Tokens are taken from their texts**, if these end where they should. -/
theorem take_print {token : Token} (hreadable : token.Readable) (hends : token.EndsBefore rest) :
    ∃ c tail, token.print = c :: tail ∧ Text.isBlank c = false ∧
      take c (tail ++ rest) = (c :: tail, .ok token) := by
  cases token with
  | number value => exact take_print_number hreadable hends
  | name text => exact take_print_name hreadable hends
  | constant value => exact take_print_constant hreadable
  | literalWord value => exact ⟨'=', _, rfl, rfl, take_print_literalWord hreadable hends⟩
  | equals => exact ⟨'=', [], rfl, rfl, take_print_equals hends⟩
  | hash => exact ⟨'#', [], rfl, rfl, rfl⟩
  | atSign => exact ⟨'@', [], rfl, rfl, rfl⟩
  | star => exact ⟨'*', [], rfl, rfl, rfl⟩
  | minus => exact ⟨'-', [], rfl, rfl, rfl⟩
  | comma => exact ⟨',', [], rfl, rfl, rfl⟩

end

/-! ## scanning -/

/-- The lexeme of a printed token. -/
def printed (token : Token) : Lexeme :=
  ⟨[], token.print, .ok token⟩

/-- Scanning goes on behind the lexeme in hand. -/
theorem scanFrom_append (covered passed rest : List Char) :
    scanFrom covered.length passed (covered ++ rest) = scanFrom 0 passed rest := by
  induction covered with
  | nil => rfl
  | cons c more ih => exact ih

/-- **A token in print** is scanned as that token, and the scan goes on behind it. -/
theorem scan_print {token : Token} {rest : List Char} (hreadable : token.Readable)
    (hends : token.EndsBefore rest) :
    scan (token.print ++ rest) = printed token :: scan rest := by
  obtain ⟨c, tail, hprint, hblank, htake⟩ := take_print hreadable hends
  have hgap : isGap c = false := isGap_of_isBlank hblank
  rw [printed, hprint, List.cons_append, scan, scanFrom, if_neg (by rw [hgap]; decide)]
  simp only [htake, List.reverse_nil, List.length_cons, Nat.add_sub_cancel, scanFrom_append, scan]

/-- **Printed tokens are scanned apart**: the lexemes of tokens printed one behind another are those
tokens, and then come the lexemes of what follows. -/
theorem scan_tokens {tokens : List Token} {rest : List Char}
    (hreadable : ∀ token ∈ tokens, token.Readable) (hapart : Token.Apart rest tokens) :
    scan (tokens.flatMap Token.print ++ rest) = tokens.map printed ++ scan rest := by
  induction tokens with
  | nil => rfl
  | cons token others ih =>
      obtain ⟨hfirst, hothers⟩ := List.forall_mem_cons.mp hreadable
      obtain ⟨hends, hlater⟩ := hapart
      rw [List.flatMap_cons, List.append_assoc, scan_print hfirst hends, ih hothers hlater]
      rfl

end Lexeme

end SicXe
