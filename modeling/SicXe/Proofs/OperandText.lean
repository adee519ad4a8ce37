import SicXe.Proofs.TokenText

/-!
# SicXe.Proofs.OperandText

Reading back printed operands.

An operand is printed as the texts of a few tokens one behind another (`toList_text`), and these
form the operand again (`ofTokens_tokens`).  The one exception is a word literal that starts with a
letter: it is printed like a name behind an equals sign, which is no operand.  Commas keep the texts
of several operands apart, so the operands of a field read back from their texts exactly if there is
no such literal among them (`readAll_joinTexts_iff`).
-/

namespace SicXe

/-- The token of a target. -/
def Target.token : Target → Token
  | number value => .number value
  | symbol name => .name name

namespace Operand

/-! ## the tokens of an operand -/

/-- The tokens that the text of an operand is read as. -/
def tokens : Operand → List Token
  | symbol name => [.name name]
  | number value => (if value < 0 then [.minus] else []) ++ [.number value.natAbs]
  | immediate target => [.hash, target.token]
  | indirect target => [.atSign, target.token]
  | literal (.bytes value) => [.equals, .constant value]
  | literal (.word value) =>
    if Text.leadingHexDigit value ≤ 9 then [.literalWord value]
    else [.equals, .name (Text.hex value)]
  | constant value => [.constant value]
  | difference minuend subtrahend => [.name minuend, .minus, .name subtrahend]
  | here => [.star]

/-- Whether an operand is none that is printed as something else: a word literal has to start with
a figure. -/
def ReadsBack : Operand → Prop
  | literal (.word value) => Text.leadingHexDigit value ≤ 9
  | _ => True

theorem toList_text_target (target : Target) : target.text.toList = target.token.print := by
  cases target with
  | number value => exact String.toList_ofList
  | symbol name => rfl

/-- The text of an operand is made of the texts of its tokens. -/
theorem toList_text (operand : Operand) :
    operand.text.toList = operand.tokens.flatMap Token.print := by
  cases operand with
  | symbol name => simp [text, tokens, Token.print]
  | number value =>
      cases value with
      | ofNat n => simp [text, Text.signedDecimal, Text.decimal, tokens, Token.print]
      | negSucc n =>
          simp [text, Text.signedDecimal, Text.decimal, tokens, Token.print,
            Int.negSucc_lt_zero]
  | immediate target => simp [text, tokens, toList_text_target, Token.print]
  | indirect target => simp [text, tokens, toList_text_target, Token.print]
  | literal value =>
      cases value with
      | bytes constant => simp [text, Literal.text, tokens, Token.print]
      | word value =>
          simp only [text, Literal.text, Text.hex, tokens]
          split <;> simp [Token.print]
  | constant value => simp [text, tokens, Token.print]
  | difference minuend subtrahend => simp [text, tokens, Token.print]
  | here => rfl

theorem tokens_of_figure {value : Nat} (h : Text.leadingHexDigit value ≤ 9) :
    (literal (.word value)).tokens = [.literalWord value] :=
  if_pos h

theorem tokens_of_letter {value : Nat} (h : ¬ Text.leadingHexDigit value ≤ 9) :
    (literal (.word value)).tokens = [.equals, .name (Text.hex value)] :=
  if_neg h

/-- The tokens of an operand form it again. -/
theorem ofTokens_tokens {operand : Operand} (h : operand.ReadsBack) (written : List Char) :
    ofTokens operand.tokens written = .ok operand := by
  cases operand with
  | number value =>
      cases value with
      | ofNat n => rfl
      | negSucc n => rw [tokens, if_pos (Int.negSucc_lt_zero n)]; rfl
  | immediate target => cases target <;> rfl
  | indirect target => cases target <;> rfl
  | literal value =>
      cases value with
      | bytes constant => rfl
      | word value => rw [tokens_of_figure h]; rfl
  | _ => rfl

/-- The tokens of a word literal that starts with a letter form no operand. -/
theorem ofTokens_of_letter {operand : Operand} (h : ¬ operand.ReadsBack) (written : List Char) :
    ∃ error, ofTokens operand.tokens written = .error error := by
  cases operand with
  | literal value =>
      cases value with
      | bytes constant => exact absurd trivial h
      | word value =>
          rw [tokens_of_letter h]
          exact ⟨_, rfl⟩
  | _ => exact absurd trivial h

/-- The text of an operand is not empty, and a comma in it is part of a constant. -/
theorem tokens_ne_nil (operand : Operand) : operand.tokens ≠ [] ∧ .comma ∉ operand.tokens := by
  cases operand with
  | number value =>
      simp only [tokens]
      split <;> simp
  | immediate target => cases target <;> simp [tokens, Target.token]
  | indirect target => cases target <;> simp [tokens, Target.token]
  | literal value =>
      cases value with
      | bytes constant => simp [tokens]
      | word value =>
          simp only [tokens]
          split <;> simp
  | _ => simp [tokens]

/-! ## operands of a field -/

/-- What is printed for a word literal that starts with a letter is a name. -/
theorem readable_hex {value : Nat} (h : ¬ Text.leadingHexDigit value ≤ 9) :
    (Token.name (Text.hex value)).Readable := by
  have hletters : ∀ d < 16, ¬ d ≤ 9 → Lexeme.startsName (Text.hexDigit d) = true := by decide
  obtain ⟨more, hdigits, hword⟩ := Lexeme.exists_hexDigits_eq value
  refine ⟨_, more, ?_, hletters _ (Text.leadingHexDigit_lt value) h, hword⟩
  rw [Text.hex, String.toList_ofList, hdigits]

theorem readable_word {value : Nat} (h : value < wordSize) :
    ∀ token ∈ (literal (.word value)).tokens, token.Readable := by
  by_cases hlead : Text.leadingHexDigit value ≤ 9
  · rw [tokens_of_figure hlead, List.forall_mem_singleton]
    exact h
  · rw [tokens_of_letter hlead, List.forall_mem_cons, List.forall_mem_singleton]
    exact ⟨trivial, readable_hex hlead⟩

theorem readable_number {value : Int} (h : value.natAbs < wordSize) :
    ∀ token ∈ (number value).tokens, token.Readable := by
  rw [tokens, List.forall_mem_append, List.forall_mem_singleton]
  refine ⟨?_, h⟩
  split
  · rw [List.forall_mem_singleton]
    trivial
  · simp

/-- The tokens of an operand are as readable as those it was formed by. -/
theorem readable_of_ofTokens {group : List Token} {written : List Char} {operand : Operand}
    (hgroup : ∀ token ∈ group, token.Readable) (h : ofTokens group written = .ok operand) :
    ∀ token ∈ operand.tokens, token.Readable := by
  unfold ofTokens at h
  split at h <;> cases h
  case h_3.refl value => exact readable_number (hgroup (.number value) (by simp))
  case h_4.refl value =>
      have hvalue : value < wordSize := hgroup (.number value) (by simp)
      exact readable_number (by rwa [Int.natAbs_neg, Int.natAbs_natCast])
  case h_10.refl value => exact readable_word (hgroup (.literalWord value) (by simp))
  all_goals simpa [tokens, Target.token] using hgroup

/-- **The tokens of operands are readable**, if these were read from a field. -/
theorem readable_of_mem_readAll {field : String} {operands : List Operand}
    (h : readAll field = .ok operands) {operand : Operand} (hmem : operand ∈ operands) :
    ∀ token ∈ operand.tokens, token.Readable := by
  obtain ⟨group, written, hgroup, htokens⟩ := exists_tokens_of_mem_readAll h hmem
  refine readable_of_ofTokens (fun token htoken => ?_) hgroup
  obtain ⟨c, rest, -, htake⟩ := htokens token htoken
  exact Lexeme.readable_of_take htake

/-! ## operands one behind another -/

/-- Whether a text is at its end or goes on with another operand. -/
def EndsOperand (rest : List Char) : Prop :=
  ∀ c ∈ rest.head?, c = ','

theorem EndsOperand.endsWord {rest : List Char} (h : EndsOperand rest) :
    ∀ c ∈ rest.head?, Text.isWordChar c = false ∧ c ≠ '\'' := by
  intro c hc
  rw [h c hc]
  decide

/-- Nothing in the text of an operand runs into what follows. -/
theorem apart_tokens (operand : Operand) {rest : List Char} (hrest : EndsOperand rest) :
    Token.Apart rest operand.tokens := by
  have hname := hrest.endsWord
  have hword : ∀ c ∈ rest.head?, Text.isWordChar c = false := fun c hc => (hname c hc).1
  have htarget : ∀ target : Target, target.token.EndsBefore rest := by
    intro target
    cases target with
    | number value => exact hword
    | symbol name => exact hname
  cases operand with
  | symbol name => exact ⟨hname, trivial⟩
  | number value =>
      simp only [tokens]
      split
      · exact ⟨trivial, hword, trivial⟩
      · exact ⟨hword, trivial⟩
  | immediate target => exact ⟨trivial, htarget target, trivial⟩
  | indirect target => exact ⟨trivial, htarget target, trivial⟩
  | literal value =>
      cases value with
      | bytes constant =>
          have hletters : Text.isDecimalDigit 'C' = false ∧ Text.isDecimalDigit 'X' = false := by
            decide
          refine ⟨?_, trivial, trivial⟩
          cases constant <;> simp [Token.EndsBefore, Token.print, Constant.text, hletters]
      | word value =>
          by_cases hlead : Text.leadingHexDigit value ≤ 9
          · rw [tokens_of_figure hlead]
            exact ⟨⟨hlead, hword⟩, trivial⟩
          · have hletter : Text.isDecimalDigit (Text.hexDigit (Text.leadingHexDigit value)) =
                false := by
              rw [Text.isDecimalDigit_hexDigit _ (Text.leadingHexDigit_lt value)]
              exact decide_eq_false hlead
            obtain ⟨more, hdigits, -⟩ := Lexeme.exists_hexDigits_eq value
            rw [tokens_of_letter hlead]
            refine ⟨?_, hname, trivial⟩
            simp [Token.EndsBefore, Token.print, Text.hex, hdigits, hletter]
  | constant value => exact ⟨trivial, trivial⟩
  | difference minuend subtrahend =>
      have hminus : Text.isWordChar '-' = false := by decide
      refine ⟨?_, trivial, hname, trivial⟩
      simp [Token.EndsBefore, Token.print, hminus]
  | here => exact ⟨trivial, trivial⟩

theorem scan_text {operand : Operand} {rest : List Char}
    (hreadable : ∀ token ∈ operand.tokens, token.Readable) (hrest : EndsOperand rest) :
    Lexeme.scan (operand.text.toList ++ rest) =
      operand.tokens.map Lexeme.printed ++ Lexeme.scan rest := by
  rw [toList_text]
  exact Lexeme.scan_tokens hreadable (apart_tokens operand hrest)

/-- The printed tokens of an operand are read into the operand in hand. -/
theorem readFrom_printed {tokens : List Token} (hcomma : .comma ∉ tokens) (before : List Token)
    (written : List Char) (rest : List Lexeme) :
    readFrom before written (tokens.map Lexeme.printed ++ rest) =
      readFrom (before ++ tokens) (written ++ tokens.flatMap Token.print) rest := by
  induction tokens generalizing before written with
  | nil => simp
  | cons token others ih =>
      obtain ⟨hfirst, hothers⟩ := not_or.mp (mt List.mem_cons.mpr hcomma)
      have hstep : readFrom before written
          ((token :: others).map Lexeme.printed ++ rest) =
            readFrom (before ++ [token]) (written ++ token.print)
              (others.map Lexeme.printed ++ rest) := by
        cases token with
        | comma => exact absurd rfl hfirst
        | _ => simp [readFrom, Lexeme.printed]
      rw [hstep, ih hothers]
      simp

/-- The text of an operand at the end of a field. -/
theorem readFrom_text {operand : Operand}
    (hreadable : ∀ token ∈ operand.tokens, token.Readable) :
    readFrom [] [] (Lexeme.scan operand.text.toList) =
      (ofTokens operand.tokens operand.text.toList).map fun found => [found] := by
  have hends : EndsOperand [] := by simp [EndsOperand]
  have hscan := scan_text hreadable hends
  rw [List.append_nil] at hscan
  rw [hscan, readFrom_printed (tokens_ne_nil operand).2, ← toList_text]
  rfl

/-- The text of an operand that a comma follows. -/
theorem readFrom_text_comma {operand : Operand} {rest : List Char}
    (hreadable : ∀ token ∈ operand.tokens, token.Readable) :
    readFrom [] [] (Lexeme.scan (operand.text.toList ++ ',' :: rest)) =
      match ofTokens operand.tokens operand.text.toList with
      | .error error => .error error
      | .ok found => (readFrom [] [] (Lexeme.scan rest)).map (found :: ·) := by
  have hends : EndsOperand (',' :: rest) := by simp [EndsOperand]
  have hcomma : Lexeme.scan (',' :: rest) = Lexeme.printed .comma :: Lexeme.scan rest := by
    change Lexeme.scan (Token.comma.print ++ rest) = _
    exact Lexeme.scan_print trivial trivial
  rw [scan_text hreadable hends, hcomma, readFrom_printed (tokens_ne_nil operand).2,
    ← toList_text]
  rfl

theorem joinTexts_singleton (operand : Operand) : joinTexts [operand] = operand.text := by
  simp [joinTexts]

theorem toList_joinTexts_cons_cons (first second : Operand) (rest : List Operand) :
    (joinTexts (first :: second :: rest)).toList =
      first.text.toList ++ ',' :: (joinTexts (second :: rest)).toList := by
  simp [joinTexts, String.toList_intercalate, List.intercalate]

/-- Operands are read from their texts if none of them is printed as something else. -/
theorem readFrom_joinTexts {operands : List Operand} (hne : operands ≠ [])
    (hreadable : ∀ operand ∈ operands, ∀ token ∈ operand.tokens, token.Readable)
    (hback : ∀ operand ∈ operands, operand.ReadsBack) :
    readFrom [] [] (Lexeme.scan (joinTexts operands).toList) = .ok operands := by
  induction operands with
  | nil => exact absurd rfl hne
  | cons first rest ih =>
      obtain ⟨hfirst, hothers⟩ := List.forall_mem_cons.mp hreadable
      obtain ⟨hthis, hlater⟩ := List.forall_mem_cons.mp hback
      cases rest with
      | nil =>
          rw [joinTexts_singleton, readFrom_text hfirst, ofTokens_tokens hthis]
          rfl
      | cons second more =>
          rw [toList_joinTexts_cons_cons, readFrom_text_comma hfirst, ofTokens_tokens hthis,
            ih (List.cons_ne_nil _ _) hothers hlater]
          rfl

/-- Operands are not read from their texts if one of them is printed as something else. -/
theorem exists_error_of_not_readsBack {operands : List Operand}
    (hreadable : ∀ operand ∈ operands, ∀ token ∈ operand.tokens, token.Readable)
    {lost : Operand} (hmem : lost ∈ operands) (hlost : ¬ lost.ReadsBack) :
    ∃ error, readFrom [] [] (Lexeme.scan (joinTexts operands).toList) = .error error := by
  induction operands with
  | nil => cases hmem
  | cons first rest ih =>
      obtain ⟨hfirst, hothers⟩ := List.forall_mem_cons.mp hreadable
      cases rest with
      | nil =>
          rw [List.mem_singleton.mp hmem] at hlost
          obtain ⟨error, herror⟩ := ofTokens_of_letter hlost first.text.toList
          rw [joinTexts_singleton, readFrom_text hfirst, herror]
          exact ⟨error, rfl⟩
      | cons second more =>
          rw [toList_joinTexts_cons_cons, readFrom_text_comma hfirst]
          -- What is wrong further left is found first.
          cases hread : ofTokens first.tokens first.text.toList with
          | error error => exact ⟨error, rfl⟩
          | ok found =>
              rcases List.mem_cons.mp hmem with rfl | hlater
              · obtain ⟨error, herror⟩ := ofTokens_of_letter hlost lost.text.toList
                rw [herror] at hread
                cases hread
              · obtain ⟨error, herror⟩ := ih hothers hlater
                simp only [herror]
                exact ⟨error, rfl⟩

/-! ## fields -/

/-- The text of an operand does not start with a blank. -/
theorem exists_text_eq_cons {operand : Operand}
    (hreadable : ∀ token ∈ operand.tokens, token.Readable) :
    ∃ c tail, operand.text.toList = c :: tail ∧ Text.isBlank c = false := by
  have hends : EndsOperand [] := by simp [EndsOperand]
  have hapart := apart_tokens operand hends
  obtain ⟨token, others, htokens⟩ := List.exists_cons_of_ne_nil (tokens_ne_nil operand).1
  rw [htokens] at hreadable hapart
  obtain ⟨c, tail, hprint, hblank, -⟩ :=
    Lexeme.take_print (hreadable token List.mem_cons_self) hapart.1
  refine ⟨c, tail ++ others.flatMap Token.print, ?_, hblank⟩
  rw [toList_text, htokens, List.flatMap_cons, hprint, List.cons_append]

/-- A field of printed operands is read from its lexemes. -/
theorem readAll_joinTexts {operands : List Operand} (hne : operands ≠ [])
    (hreadable : ∀ operand ∈ operands, ∀ token ∈ operand.tokens, token.Readable) :
    readAll (joinTexts operands) =
      readFrom [] [] (Lexeme.scan (joinTexts operands).toList) := by
  obtain ⟨first, rest, rfl⟩ := List.exists_cons_of_ne_nil hne
  obtain ⟨c, tail, htext, hblank⟩ := exists_text_eq_cons (hreadable first List.mem_cons_self)
  have hstart : ∃ more, (joinTexts (first :: rest)).toList = c :: more := by
    cases rest with
    | nil => exact ⟨tail, by rw [joinTexts_singleton, htext]⟩
    | cons second others => exact ⟨_, by rw [toList_joinTexts_cons_cons, htext, List.cons_append]⟩
  obtain ⟨more, hmore⟩ := hstart
  rw [readAll, if_neg]
  simp [Text.allBlank, hmore, hblank]

/-- A field of one printed operand. -/
theorem readAll_text {operand : Operand} (hreadable : ∀ token ∈ operand.tokens, token.Readable) :
    readAll operand.text =
      (ofTokens operand.tokens operand.text.toList).map fun found => [found] := by
  have hread := readAll_joinTexts (List.cons_ne_nil operand []) (by simpa using hreadable)
  rw [joinTexts_singleton, readFrom_text hreadable] at hread
  exact hread

/-- **Which operands read back**: those of a field are read again from their texts with commas
between them exactly if every word literal among them starts with a figure. -/
theorem readAll_joinTexts_iff {field : String} {operands : List Operand}
    (h : readAll field = .ok operands) :
    readAll (joinTexts operands) = .ok operands ↔
      ∀ value, .literal (.word value) ∈ operands → Text.leadingHexDigit value ≤ 9 := by
  have hreadable : ∀ operand ∈ operands, ∀ token ∈ operand.tokens, token.Readable :=
    fun operand hmem => readable_of_mem_readAll h hmem
  by_cases hne : operands = []
  · subst hne
    simp [joinTexts, readAll, Text.allBlank]
  rw [readAll_joinTexts hne hreadable]
  constructor
  · intro hread value hmem
    by_cases hfigure : Text.leadingHexDigit value ≤ 9
    · exact hfigure
    · obtain ⟨error, herror⟩ := exists_error_of_not_readsBack hreadable hmem hfigure
      rw [herror] at hread
      cases hread
  · intro hfigures
    refine readFrom_joinTexts hne hreadable fun operand hmem => ?_
    cases operand with
    | literal value =>
        cases value with
        | bytes constant => trivial
        | word value => exact hfigures value hmem
    | _ => trivial

/-- **Printed operands read back.**  The operands of a field without word literals are read again
from their texts with commas between them: symbols, signed numbers, immediate and indirect operands,
constants and literals with whatever stands between their quotes, differences and the asterisk. -/
theorem operands_read_back (field : String) (operands : List Operand)
    (hfield : readAll field = .ok operands) (hwords : ∀ value, .literal (.word value) ∉ operands) :
    readAll (joinTexts operands) = .ok operands :=
  (readAll_joinTexts_iff hfield).mpr fun value hmem => absurd hmem (hwords value)

/-- Operands of every kind but word literals. -/
def mixedOperands : List Operand :=
  [.constant (.chars "é, b"), .literal (.bytes (.hex [0x0F])), .immediate (.number 7),
    .indirect (.symbol "BUF"), .number 0, .number (-12), .symbol "X", .difference "A" "B", .here]

/-- Blanks, small letters and zeros in front go; the comma and the blank between quotes stay. -/
theorem operands_read_back_mixed :
    readAll " c'é, b' ,=x'0f' , #007,@BUF,-0,- 12 , X,A - B,*" = .ok mixedOperands ∧
    readAll "C'é, b',=X'0F',#7,@BUF,0,-12,X,A-B,*" = .ok mixedOperands := by
  have hfield : readAll " c'é, b' ,=x'0f' , #007,@BUF,-0,- 12 , X,A - B,*" =
      .ok mixedOperands := by rfl
  have htext : joinTexts mixedOperands = "C'é, b',=X'0F',#7,@BUF,0,-12,X,A-B,*" := by
    decide +kernel
  have hback := operands_read_back _ mixedOperands hfield (by simp [mixedOperands])
  rw [htext] at hback
  exact ⟨hfield, hback⟩

end Operand

end SicXe
