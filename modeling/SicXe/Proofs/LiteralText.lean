import SicXe.Layout
import SicXe.ObjectCode
import SicXe.Proofs.OperandText

/-!
# SicXe.Proofs.LiteralText

Reading back the text of a literal.

A literal goes by its text in the literal table, and whoever needs its bytes reads them from there.
The text of a constant always reads back, and so does that of a word that starts with a figure;
but a word is printed without the leading zero it may have been written with, and if it then starts
with a letter, the scanner takes `=` for a mark and the rest for a name
(`read_text_eq_iff`).
-/

namespace SicXe

namespace Literal

/-! ## reading back -/

/-- A literal is read from its text if it is formed by the tokens of it. -/
theorem read_text_of_readsBack {literal : Literal}
    (hreadable : ∀ token ∈ (Operand.literal literal).tokens, token.Readable)
    (hback : (Operand.literal literal).ReadsBack) : read literal.text = .ok literal := by
  have hread := Operand.readAll_text hreadable
  rw [Operand.ofTokens_tokens hback] at hread
  rw [read, Operand.read, show literal.text = (Operand.literal literal).text from rfl, hread]
  rfl

/-- The text of a literal made from a constant reads back. -/
theorem read_text_bytes {constant : Constant} (h : constant.Written) :
    read (bytes constant).text = .ok (bytes constant) := by
  apply read_text_of_readsBack
  · rw [Operand.tokens, List.forall_mem_cons, List.forall_mem_singleton]
    exact ⟨trivial, h⟩
  · trivial

/-- The text of a word reads back if the word starts with a figure. -/
theorem read_text_word {value : Nat} (h : value < wordSize)
    (hlead : Text.leadingHexDigit value ≤ 9) : read (word value).text = .ok (word value) :=
  read_text_of_readsBack (Operand.readable_word h) hlead

/-- The text of a word is no literal if the word starts with a letter. -/
theorem read_text_word_of_letter {value : Nat} (hlead : 9 < Text.leadingHexDigit value) :
    ∃ error, read (word value).text = .error error := by
  have hletter : ¬ (Operand.literal (word value)).ReadsBack := Nat.not_le_of_lt hlead
  have hreadable : ∀ token ∈ (Operand.literal (word value)).tokens, token.Readable := by
    rw [Operand.tokens_of_letter hletter, List.forall_mem_cons, List.forall_mem_singleton]
    exact ⟨trivial, Operand.readable_hex hletter⟩
  have hread := Operand.readAll_text hreadable
  obtain ⟨error, herror⟩ := Operand.ofTokens_of_letter hletter
    (Operand.literal (word value)).text.toList
  rw [herror] at hread
  rw [read, Operand.read, show (word value).text = (Operand.literal (word value)).text from rfl,
    hread]
  exact ⟨error, rfl⟩

/-- **The text of a literal reads back unless it is a word that starts with a letter.**  A literal
that was read from an operand field is read again from its text exactly if it is a constant or its
leading hexadecimal digit is a figure.  If it is not, it gets no room in the literal pool and has
no bytes there. -/
theorem read_text_eq_iff (field : String) (operands : List Operand)
    (hfield : Operand.readAll field = .ok operands) (literal : Literal)
    (hmem : .literal literal ∈ operands) :
    (read literal.text = .ok literal ↔
      ∀ value, literal = word value → Text.leadingHexDigit value ≤ 9) ∧
    (read literal.text ≠ .ok literal →
      Layout.literalSize literal.text = 0 ∧ Encoding.literalContents literal.text = []) := by
  have hwritten : literal.Written := Operand.written_of_mem_readAll hfield hmem
  cases literal with
  | bytes constant =>
      have hread := read_text_bytes hwritten
      refine ⟨⟨?_, fun _ => hread⟩, fun hlost => absurd hread hlost⟩
      rintro - value hvalue
      cases hvalue
  | word value =>
      by_cases hlead : Text.leadingHexDigit value ≤ 9
      · have hread := read_text_word hwritten hlead
        refine ⟨⟨?_, fun _ => hread⟩, fun hlost => absurd hread hlost⟩
        rintro - other hother
        cases hother
        exact hlead
      · obtain ⟨error, hread⟩ := read_text_word_of_letter (Nat.lt_of_not_le hlead)
        refine ⟨⟨?_, fun hfigure => absurd (hfigure value rfl) hlead⟩, fun _ => ⟨?_, ?_⟩⟩
        · intro hok
          rw [hread] at hok
          cases hok
        · rw [Layout.literalSize, hread]
        · rw [Encoding.literalContents, hread]

/-- The word that is written `=0A` is printed as `=A`, and that is not read. -/
theorem leading_zero_is_lost :
    Layout.literalSize "=A" = 0 ∧ Encoding.literalContents "=A" = [] := by
  obtain ⟨hiff, hlost⟩ := read_text_eq_iff "=0A" [.literal (.word 10)] rfl (.word 10)
    List.mem_cons_self
  have hlead : ¬ Text.leadingHexDigit 10 ≤ 9 := by
    rw [Text.leadingHexDigit]
    decide
  exact hlost (fun hread => hlead (hiff.mp hread 10 rfl))

/-- Not every literal that can be written reads back from its text. -/
theorem not_read_text_of_written :
    ¬ ∀ (field : String) (operands : List Operand) (literal : Literal),
      Operand.readAll field = .ok operands → .literal literal ∈ operands →
      read literal.text = .ok literal := by
  intro h
  have hread := h "=0A" [.literal (.word 10)] (.word 10) rfl List.mem_cons_self
  obtain ⟨error, herror⟩ := read_text_word_of_letter (show 9 < Text.leadingHexDigit 10 by
    rw [Text.leadingHexDigit]
    decide)
  rw [herror] at hread
  cases hread

end Literal

end SicXe
