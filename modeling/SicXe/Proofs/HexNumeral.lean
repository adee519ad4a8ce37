import SicXe.Bytes
import SicXe.Text.DecimalDigit
import SicXe.Text.WordChar

/-!
# SicXe.Proofs.HexNumeral

Reading back decimal and hexadecimal numbers and byte strings.

A number is printed with capital digits and without leading zeros, so its text starts with its
leading digit (`head?_hexDigits`), which may be a letter.  Reading takes the digits to the number
again in any base (`readDigits_toDigits`) and pairs of them to the bytes
(`ofHexDigits?_flatMap_hexPair`).
-/

namespace SicXe

namespace Text

/-! ## single digits -/

/-- The capital hexadecimal digit of a number below 16. -/
def hexDigit (d : Nat) : Char :=
  d.digitChar.toUpper

/-- A hexadecimal digit has the value it was written for. -/
theorem digitValue?_hexDigit : ∀ d < 16, digitValue? 16 (hexDigit d) = some d := by decide

theorem isWordChar_hexDigit : ∀ d < 16, isWordChar (hexDigit d) = true := by decide

/-- The ten figures are decimal digits, and the letters behind them are not. -/
theorem isDecimalDigit_hexDigit : ∀ d < 16, isDecimalDigit (hexDigit d) = decide (d ≤ 9) := by
  decide

/-! ## the digits of a number -/

/-- A numeral has only digits of its base. -/
theorem exists_digit_of_mem {base n : Nat} (hbase : 1 < base) {c : Char}
    (h : c ∈ Nat.toDigits base n) : ∃ d < base, c = d.digitChar := by
  induction n using Nat.strongRecOn with
  | ind n ih =>
      by_cases hlt : n < base
      · rw [Nat.toDigits_of_lt_base hlt, List.mem_singleton] at h
        exact ⟨n, hlt, h⟩
      · have hle : base ≤ n := Nat.le_of_not_lt hlt
        have hless : n / base < n := Nat.div_lt_self (by omega) hbase
        rw [Nat.toDigits_of_base_le hbase hle, List.mem_append, List.mem_singleton] at h
        rcases h with hfirst | hlast
        · exact ih (n / base) hless hfirst
        · exact ⟨n % base, Nat.mod_lt _ (by omega), hlast⟩

theorem hexDigits_of_lt {n : Nat} (h : n < 16) : hexDigits n = [hexDigit n] := by
  rw [hexDigits, Nat.toDigits_of_lt_base h]
  rfl

/-- The last digit is the remainder, and the digits before it are those of the quotient. -/
theorem hexDigits_of_le {n : Nat} (h : 16 ≤ n) :
    hexDigits n = hexDigits (n / 16) ++ [hexDigit (n % 16)] := by
  rw [hexDigits, Nat.toDigits_of_base_le (by decide) h, List.map_append]
  rfl

/-- A hexadecimal numeral has only hexadecimal digits. -/
theorem exists_hexDigit_of_mem {n : Nat} {c : Char} (h : c ∈ hexDigits n) :
    ∃ d < 16, c = hexDigit d := by
  obtain ⟨digit, hdigit, rfl⟩ := List.mem_map.mp h
  obtain ⟨d, hd, rfl⟩ := exists_digit_of_mem (by decide) hdigit
  exact ⟨d, hd, rfl⟩

/-- The hexadecimal digit that a number starts with. -/
def leadingHexDigit (n : Nat) : Nat :=
  if n < 16 then n else leadingHexDigit (n / 16)
termination_by n
decreasing_by omega

theorem leadingHexDigit_lt (n : Nat) : leadingHexDigit n < 16 := by
  fun_induction leadingHexDigit n with
  | case1 n h => exact h
  | case2 n h ih => exact ih

/-- The text of a number starts with its leading digit. -/
theorem head?_hexDigits (n : Nat) :
    (hexDigits n).head? = some (hexDigit (leadingHexDigit n)) := by
  fun_induction leadingHexDigit n with
  | case1 n h => rw [hexDigits_of_lt h]; rfl
  | case2 n h ih => rw [hexDigits_of_le (by omega), List.head?_append, ih]; rfl

/-! ## reading digits -/

/-- Digits are read from the left, so the value of the first ones is where the others go on. -/
theorem readDigits_append (base bound value : Nat) (first second : List Char) :
    readDigits base bound value (first ++ second) =
      (readDigits base bound value first).bind fun read => readDigits base bound read second := by
  induction first generalizing value with
  | nil => rfl
  | cons c rest ih =>
      simp only [List.cons_append, readDigits]
      split
      · rfl
      · split
        · exact ih _
        · rfl

/-- **Numbers read back** from their digits, if they are below the bound.  The digits may be
printed with other characters, as capitals are, if these have the same values. -/
theorem readDigits_toDigits {base bound n : Nat} {f : Char → Char} (hbase : 1 < base)
    (hdigit : ∀ d < base, digitValue? base (f d.digitChar) = some d) (h : n < bound) :
    readDigits base bound 0 ((Nat.toDigits base n).map f) = .ok n := by
  induction n using Nat.strongRecOn with
  | ind n ih =>
      by_cases hlt : n < base
      · rw [Nat.toDigits_of_lt_base hlt]
        simp [readDigits, hdigit n hlt, h]
      · have hle : base ≤ n := Nat.le_of_not_lt hlt
        have hless : n / base < n := Nat.div_lt_self (by omega) hbase
        have hfirst := ih (n / base) hless (by omega)
        have hlast := hdigit (n % base) (Nat.mod_lt _ (by omega))
        have hwhole : n / base * base + n % base = n := Nat.div_add_mod' n base
        rw [Nat.toDigits_of_base_le hbase hle, List.map_append, readDigits_append, hfirst]
        simp [Except.bind, readDigits, hlast, hwhole, h]

/-- The digits of a number are read as that number, if it is below the bound. -/
theorem readDigits_hexDigits {n bound : Nat} (h : n < bound) :
    readDigits 16 bound 0 (hexDigits n) = .ok n :=
  readDigits_toDigits (by decide) digitValue?_hexDigit h

theorem readNumeral_decimal {n bound : Nat} (h : n < bound) :
    readNumeral 10 bound (Nat.toDigits 10 n) = .ok n := by
  have hdigit : ∀ d < 10, digitValue? 10 (id d.digitChar) = some d := by decide
  have hread := readDigits_toDigits (by decide) hdigit h
  rw [List.map_id] at hread
  rw [readNumeral, if_neg Nat.toDigits_ne_nil, hread]

/-- A hexadecimal numeral is read as its number, if that is below the bound. -/
theorem readNumeral_hexDigits {n bound : Nat} (h : n < bound) :
    readNumeral 16 bound (hexDigits n) = .ok n := by
  have hne : hexDigits n ≠ [] := by
    intro hnil
    have hhead := head?_hexDigits n
    rw [hnil] at hhead
    cases hhead
  rw [readNumeral, if_neg hne, readDigits_hexDigits h]

end Text

/-! ## byte strings -/

namespace Bytes

/-- The digits of a byte: its high half and its low half. -/
theorem hexPair_eq (byte : UInt8) :
    hexPair byte = [Text.hexDigit (byte.toNat / 16), Text.hexDigit (byte.toNat % 16)] := by
  have hbyte : byte.toNat < 256 := byte.toNat_lt
  rw [hexPair, Text.hexPadded, String.toList_ofList]
  by_cases hlt : byte.toNat < 16
  · rw [Text.hexDigits_of_lt hlt, Nat.div_eq_of_lt hlt, Nat.mod_eq_of_lt hlt]
    rfl
  · rw [Text.hexDigits_of_le (by omega), Text.hexDigits_of_lt (by omega)]
    rfl

/-- **Byte strings read back** from their hexadecimal digits. -/
theorem ofHexDigits?_flatMap_hexPair (bytes : List UInt8) :
    ofHexDigits? (bytes.flatMap hexPair) = some bytes := by
  induction bytes with
  | nil => rfl
  | cons byte rest ih =>
      have hbyte : byte.toNat < 256 := byte.toNat_lt
      have hhigh := Text.digitValue?_hexDigit (byte.toNat / 16) (by omega)
      have hlow := Text.digitValue?_hexDigit (byte.toNat % 16) (by omega)
      have hwhole : UInt8.ofNat (16 * (byte.toNat / 16) + byte.toNat % 16) = byte := by
        rw [Nat.div_add_mod, UInt8.ofNat_toNat]
      rw [List.flatMap_cons, hexPair_eq]
      simp only [List.cons_append, List.nil_append, ofHexDigits?, hhigh, hlow, ih,
        Option.bind_eq_bind, Option.bind_some, hwhole]
      rfl

theorem isDigitOf_of_mem_hexPair {byte : UInt8} {c : Char} (h : c ∈ hexPair byte) :
    Text.isDigitOf 16 c = true := by
  have hbyte : byte.toNat < 256 := byte.toNat_lt
  rw [hexPair_eq, List.mem_cons, List.mem_singleton] at h
  rcases h with rfl | rfl
  · rw [Text.isDigitOf, Text.digitValue?_hexDigit _ (by omega)]
    rfl
  · rw [Text.isDigitOf, Text.digitValue?_hexDigit _ (by omega)]
    rfl

end Bytes

end SicXe
