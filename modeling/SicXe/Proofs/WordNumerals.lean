import Mathlib.Data.Nat.Digits.Defs
import SicXe.Proofs.NumberFields

/-!
# SicXe.Proofs.WordNumerals

Numbers and word literals of any length.

A piece of a field that starts like a number may be as long as it likes, and it may hold digits and
letters of any script.  It is read digit by digit into 32 bits, and only then compared with the 24
bits of a word.  The value of digits is told apart from reading them (`Text.numeralValue`), and
reading comes to it (`readDigits_of_digits`): a value that reaches the bound at some digit does not
come back below it, so nothing is lost by stopping there.  `word_numerals_hold_their_value` says
what this means for numbers and word literals, and for the operands made of them.
-/

namespace SicXe

namespace Text

/-! ## the value of digits -/

/-- Whether a character is an ASCII digit of base 16, in either case. -/
def isHexDigit (c : Char) : Bool :=
  c.isDigit || ('A' ≤ c && c ≤ 'F') || ('a' ≤ c && c ≤ 'f')

/-- What a digit counts for: letters of either case go on behind the ten figures. -/
def figure (c : Char) : Nat :=
  if c.isDigit then c.toNat - '0'.toNat
  else if c ≤ 'F' then c.toNat - 'A'.toNat + 10
  else c.toNat - 'a'.toNat + 10

/-- The number that digits stand for, the most significant one first. -/
def numeralValue (base : Nat) (digits : List Char) : Nat :=
  Nat.ofDigits base (digits.map figure).reverse

/-- A digit in front counts for its figure times the place it has. -/
theorem numeralValue_cons (base : Nat) (c : Char) (digits : List Char) :
    numeralValue base (c :: digits) =
      figure c * base ^ digits.length + numeralValue base digits := by
  rw [numeralValue, List.map_cons, Nat.ofDigits_reverse_cons, List.length_map, Nat.mul_comm,
    Nat.add_comm]
  rfl

/-- Which characters are the digits of a base, and that they count for their figures. -/
def AreDigits (base : Nat) (isDigit : Char → Bool) : Prop :=
  ∀ c, digitValue? base c = if isDigit c then some (figure c) else none

theorem char_le_iff (c d : Char) : c ≤ d ↔ c.toNat ≤ d.toNat := Iff.rfl

/-- The decimal digits are those of base ten. -/
theorem areDigits_ten : AreDigits 10 Char.isDigit := by
  intro c
  simp only [digitValue?, digitValue, figure, Char.isDigit_iff_toNat, char_le_iff,
    Char.reduceToNat]
  split_ifs <;> simp [Option.filter] <;> omega

/-- The hexadecimal digits are those of base sixteen. -/
theorem areDigits_sixteen : AreDigits 16 isHexDigit := by
  intro c
  simp only [digitValue?, digitValue, figure, isHexDigit, Bool.or_eq_true, Bool.and_eq_true,
    decide_eq_true_eq, Char.isDigit_iff_toNat, char_le_iff, Char.reduceToNat]
  split_ifs <;> simp [Option.filter] <;> omega

/-! ## reading digits -/

section
variable {base bound : Nat} {isDigit : Char → Bool}

/-- **Reading digits comes to their value**, behind the value that was read before them, and fails
only if that value reaches the bound. -/
theorem readDigits_of_digits (hbase : 0 < base) (hdigits : AreDigits base isDigit)
    {digits : List Char} (h : ∀ c ∈ digits, isDigit c = true) {value : Nat}
    (hvalue : value < bound) :
    readDigits base bound value digits =
      if value * base ^ digits.length + numeralValue base digits < bound then
        .ok (value * base ^ digits.length + numeralValue base digits)
      else .error .tooLarge := by
  induction digits generalizing value with
  | nil => simp [readDigits, numeralValue, hvalue]
  | cons c rest ih =>
      obtain ⟨hc, hrest⟩ := List.forall_mem_cons.mp h
      have hread : digitValue? base c = some (figure c) := by rw [hdigits c, if_pos hc]
      have htotal : value * base ^ (c :: rest).length + numeralValue base (c :: rest) =
          (value * base + figure c) * base ^ rest.length + numeralValue base rest := by
        rw [numeralValue_cons, List.length_cons, Nat.pow_succ]
        ring
      rw [readDigits, hread, htotal]
      dsimp only
      split
      · next hlt => exact ih hrest hlt
      · next hge =>
          -- The digits that follow make the value no smaller.
          have hpos : 0 < base ^ rest.length := Nat.pow_pos hbase
          have hgrows := Nat.le_mul_of_pos_right (value * base + figure c) hpos
          rw [if_neg (by omega)]

/-- What is read without an error is all digits. -/
theorem isDigit_of_readDigits (hdigits : AreDigits base isDigit) {digits : List Char}
    {value result : Nat} (h : readDigits base bound value digits = .ok result) :
    ∀ c ∈ digits, isDigit c = true := by
  induction digits generalizing value with
  | nil => simp
  | cons c rest ih =>
      rw [readDigits, hdigits c] at h
      by_cases hc : isDigit c = true
      · rw [if_pos hc] at h
        dsimp only at h
        split at h
        · exact List.forall_mem_cons.mpr ⟨hc, ih h⟩
        · cases h
      · rw [if_neg hc] at h
        cases h

end

end Text

/-! ## words -/

namespace Lexeme

section
variable {base : Nat} {isDigit : Char → Bool} {notDigits : LexicalError} {digits : List Char}

/-- Digits are read as the word they stand for, or refused for being too large. -/
theorem readWord_of_digits (hbase : 0 < base) (hdigits : Text.AreDigits base isDigit)
    (hne : digits ≠ []) (h : ∀ c ∈ digits, isDigit c = true) :
    readWord base notDigits digits =
      if Text.numeralValue base digits < wordSize then .ok (Text.numeralValue base digits)
      else .error .exceedsWord := by
  have hread : Text.readDigits base 0x100000000 0 digits = _ :=
    Text.readDigits_of_digits hbase hdigits h (by decide)
  rw [Nat.zero_mul, Nat.zero_add] at hread
  rw [readWord, Text.readNumeral, if_neg hne, hread]
  by_cases hlt : Text.numeralValue base digits < 0x100000000
  · rw [if_pos hlt]
  · -- What does not fit into 32 bits does not fit into 24 of them either.
    have hword : wordSize ≤ 0x100000000 := by decide
    rw [if_neg hlt, if_neg (by omega)]

/-- **A word is read exactly from digits whose value fits in it.** -/
theorem readWord_eq_ok_iff (hbase : 0 < base) (hdigits : Text.AreDigits base isDigit)
    (hne : digits ≠ []) {value : Nat} :
    readWord base notDigits digits = .ok value ↔
      (∀ c ∈ digits, isDigit c = true) ∧ Text.numeralValue base digits = value ∧
        value < wordSize := by
  constructor
  · intro h
    have hall : ∀ c ∈ digits, isDigit c = true := by
      unfold readWord at h
      split at h
      · next result hread =>
          rw [Text.readNumeral, if_neg hne] at hread
          exact Text.isDigit_of_readDigits hdigits hread
      · cases h
      · cases h
    refine ⟨hall, ?_, lt_of_readWord h⟩
    rw [readWord_of_digits hbase hdigits hne hall] at h
    split at h
    · exact Except.ok.inj h
    · cases h
  · rintro ⟨hall, rfl, hlt⟩
    rw [readWord_of_digits hbase hdigits hne hall, if_pos hlt]

end

theorem map_eq_ok_iff {ε α β : Type} {f : α → β} (hf : ∀ a b, f a = f b → a = b)
    {result : Except ε α} {value : α} : result.map f = .ok (f value) ↔ result = .ok value := by
  constructor
  · intro h
    obtain ⟨found, rfl, hfound⟩ := exists_of_map_eq_ok h
    rw [hf found value hfound]
  · rintro rfl
    rfl

/-- What a piece of a field is read as: a token for each value of the digits that fits in a word,
and an error if the digits stand for more. -/
structure ReadsWord (base : Nat) (isDigit : Char → Bool) (token : Nat → Token) (piece : List Char)
    (reading : Except LexicalError Token) : Prop where
  /-- A token is read exactly from digits whose value fits. -/
  token : ∀ value, reading = .ok (token value) ↔
    (∀ c ∈ piece, isDigit c = true) ∧ Text.numeralValue base piece = value ∧ value ≤ 0xFFFFFF
  /-- Digits that stand for too much do not fit, however many there are. -/
  exceeds : (∀ c ∈ piece, isDigit c = true) → 0xFFFFFF < Text.numeralValue base piece →
    reading = .error .exceedsWord

/-- Whatever the piece is, it is read exactly if it is a numeral of one word. -/
theorem readsWord_readWord {base : Nat} {isDigit : Char → Bool} {notDigits : LexicalError}
    {token : Nat → Token} {piece : List Char} (hbase : 0 < base)
    (hdigits : Text.AreDigits base isDigit) (htoken : ∀ a b, token a = token b → a = b)
    (hne : piece ≠ []) :
    ReadsWord base isDigit token piece ((readWord base notDigits piece).map token) := by
  constructor
  · intro value
    rw [map_eq_ok_iff htoken, readWord_eq_ok_iff hbase hdigits hne]
    simp [wordSize, Nat.lt_succ_iff]
  · intro hall hlarge
    have hge : ¬ Text.numeralValue base piece < wordSize := by
      simpa [wordSize, Nat.lt_succ_iff] using hlarge
    rw [readWord_of_digits hbase hdigits hne hall, if_neg hge]
    rfl

/-- **Numbers and word literals hold their value.**  Take any piece of a field that starts with a
digit of some script and goes on with word characters, and let no word character follow.  As a
number it is taken whole, and it is read as `value` exactly if it is made of ASCII digits that stand
for `value` in base 10 and `value` fits in a word; if they stand for more it does not fit, however
long it is.  Behind an equals sign the same holds of word literals and base 16.  So the numbers
among the operands of a field have 24 bits and a sign, and the word literals have 24 bits. -/
theorem word_numerals_hold_their_value :
    (∀ (first : Char) (rest after : List Char), Text.isDecimalDigit first = true →
      (∀ c ∈ rest, Text.isWordChar c = true) → (∀ c ∈ after.head?, Text.isWordChar c = false) →
      ((take first (rest ++ after)).1 = first :: rest ∧
        ReadsWord 10 Char.isDigit .number (first :: rest) (take first (rest ++ after)).2) ∧
      (take '=' (first :: rest ++ after)).1 = '=' :: first :: rest ∧
        ReadsWord 16 Text.isHexDigit .literalWord (first :: rest)
          (take '=' (first :: rest ++ after)).2) ∧
    ∀ field operands, Operand.readAll field = .ok operands →
      (∀ value, Operand.number value ∈ operands → -0xFFFFFF ≤ value ∧ value ≤ 0xFFFFFF) ∧
      ∀ value, Operand.literal (.word value) ∈ operands → value ≤ 0xFFFFFF := by
  refine ⟨?_, ?_⟩
  · intro first rest after hfirst hrest hafter
    have hwhole : (rest ++ after).takeWhile Text.isWordChar = rest :=
      takeWhile_append_eq hrest hafter
    have hnumber : take first (rest ++ after) = _ := take_number hfirst
    have hliteral : take '=' (first :: (rest ++ after)) = _ := take_equals first
    rw [hwhole] at hnumber
    rw [hwhole, if_pos hfirst] at hliteral
    rw [hnumber, List.cons_append, hliteral]
    refine ⟨⟨rfl, ?_⟩, rfl, ?_⟩
    · exact readsWord_readWord (by decide) Text.areDigits_ten
        (fun _ _ => Token.number.inj) (by simp)
    · exact readsWord_readWord (by decide) Text.areDigits_sixteen
        (fun _ _ => Token.literalWord.inj) (by simp)
  · intro field operands hread
    refine ⟨fun value hvalue => ?_, fun value hvalue => ?_⟩
    · have hlt := Operand.natAbs_lt_of_mem_readAll hread hvalue
      rw [wordSize] at hlt
      omega
    · exact Nat.lt_succ_iff.mp (Operand.written_of_mem_readAll hread hvalue)

/-- Leading zeros do not count, too many digits do not fit, and digits of other scripts are none. -/
theorem word_numerals_of_longPieces :
    (take '0' "0000000016777215,X".toList).2 = .ok (.number 0xFFFFFF) ∧
    (take '9' "9999999999999999999".toList).2 = .error .exceedsWord ∧
    (∀ value, (take '7' "\u0663".toList).2 ≠ .ok (.number value)) ∧
    (take '=' "000000000FfFfFf".toList).2 = .ok (.literalWord 0xFFFFFF) ∧
    (take '=' "0000000001000000".toList).2 = .error .exceedsWord := by
  obtain ⟨hpieces, -⟩ := word_numerals_hold_their_value
  have hzeros := hpieces '0' "0000000016777215".toList [',', 'X']
    (by decide) (List.all_eq_true.mp (by decide)) (by rintro _ ⟨⟩; decide)
  have hnines := hpieces '9' "9999999999999999999".toList []
    (by decide) (List.all_eq_true.mp (by decide)) (by simp)
  have hother := hpieces '7' ['\u0663'] []
    (by decide) (List.all_eq_true.mp (by decide)) (by simp)
  have hword := hpieces '0' "00000000FfFfFf".toList []
    (by decide) (List.all_eq_true.mp (by decide)) (by simp)
  have hlong := hpieces '0' "000000001000000".toList []
    (by decide) (List.all_eq_true.mp (by decide)) (by simp)
  refine ⟨?_, ?_, ?_, ?_, ?_⟩
  · exact (hzeros.1.2.token _).mpr ⟨List.all_eq_true.mp (by decide), by decide, by decide⟩
  · exact hnines.1.2.exceeds (List.all_eq_true.mp (by decide)) (by decide)
  · intro value hvalue
    exact absurd (((hother.1.2.token value).mp hvalue).1 '\u0663' (by simp)) (by decide)
  · exact (hword.2.2.token _).mpr ⟨List.all_eq_true.mp (by decide), by decide, by decide⟩
  · exact hlong.2.2.exceeds (List.all_eq_true.mp (by decide)) (by decide)

end Lexeme

end SicXe
