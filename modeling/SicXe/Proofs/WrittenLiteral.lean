import SicXe.Operand.Read

/-!
# SicXe.Proofs.WrittenLiteral

The literals that an operand field can hold.

A constant is never empty, has no quote among its characters and has whole bytes; a word literal
fits in a word.  That is so of every token that is taken from a field (`written_of_take`), and so of
the literals among the operands read from it (`written_of_mem_readAll`).
-/

namespace SicXe

/-- What a constant has to be to stand between quotes. -/
def Constant.Written : Constant → Prop
  | chars body => body.toList ≠ [] ∧ '\'' ∉ body.toList
  | hex bytes => bytes ≠ []

/-- What a literal has to be to stand in an operand field. -/
def Literal.Written : Literal → Prop
  | bytes constant => constant.Written
  | word value => value < wordSize

/-- What a token has to be for the literals made of it to be written. -/
def Token.Written : Token → Prop
  | constant value => value.Written
  | literalWord value => value < wordSize
  | _ => True

theorem exists_of_map_eq_ok {ε α β : Type} {f : α → β} {result : Except ε α} {value : β}
    (h : result.map f = .ok value) : ∃ found, result = .ok found ∧ f found = value := by
  cases result with
  | error error => cases h
  | ok found => exact ⟨found, rfl, Except.ok.inj h⟩

/-! ## lexemes -/

namespace Lexeme

/-- A numeral that is read as a word is below the bound of words. -/
theorem lt_of_readWord {base : Nat} {notDigits : LexicalError} {digits : List Char} {value : Nat}
    (h : readWord base notDigits digits = .ok value) : value < wordSize := by
  unfold readWord at h
  split at h
  · split at h
    · next hlt =>
        cases h
        exact hlt
    · cases h
  · cases h
  · cases h

/-- A constant that is read from quotes can be written. -/
theorem written_of_readConstant {letter : Char} {body : List Char} {value : Constant}
    (h : readConstant letter body = .ok value) (hquote : '\'' ∉ body) : value.Written := by
  unfold readConstant at h
  split at h
  · cases h
  · next hne =>
      split at h
      · cases h
        simpa [Constant.Written] using And.intro hne hquote
      · split at h
        · cases h
        · split at h
          · cases h
          · next bytes hbytes =>
              cases h
              rintro rfl
              -- Only an empty text reads as no bytes.
              unfold Bytes.ofHexDigits? at hbytes
              split at hbytes
              · exact hne rfl
              · cases hbytes
              · simp [Option.bind_eq_some_iff] at hbytes

/-- So can every constant that the scanner takes. -/
theorem written_of_takeConstant {letter : Char} {rest : List Char} {token : Token}
    (h : (takeConstant letter rest).2 = .ok token) : token.Written := by
  unfold takeConstant at h
  dsimp only at h
  split at h
  · cases h
  · obtain ⟨value, hread, rfl⟩ := exists_of_map_eq_ok h
    apply written_of_readConstant hread
    intro hmem
    have hquote := List.all_eq_true.mp List.all_takeWhile _ hmem
    simp at hquote

/-- What the lexeme that starts with `c` can be when `rest` follows it. -/
inductive Taken (c : Char) (rest : List Char) : List Char × Except LexicalError Token → Prop
  /-- A number, with everything that makes it look like one. -/
  | number (hdigit : Text.isDecimalDigit c = true) :
      Taken c rest (c :: rest.takeWhile Text.isWordChar,
        (readWord 10 .invalidNumber (c :: rest.takeWhile Text.isWordChar)).map .number)
  /-- A constant, whose letter stands right before a quote. -/
  | constant (body : List Char) (hrest : rest = '\'' :: body)
      (hletter : startsConstant c = true) : Taken c rest (takeConstant c body)
  /-- A name. -/
  | name (hletter : startsName c = true) : Taken c rest (takeName c rest)
  /-- A word literal, whose sign stands right before a digit. -/
  | literalWord (d : Char) (more : List Char) (hsign : c = '=') (hrest : rest = d :: more)
      (hdigit : Text.isDecimalDigit d = true) :
      Taken c rest ('=' :: d :: more.takeWhile Text.isWordChar,
        (readWord 16 .invalidHex (d :: more.takeWhile Text.isWordChar)).map .literalWord)
  /-- A character that is a token by itself. -/
  | mark (token : Token) (hmark : mark? c = some token) : Taken c rest ([c], .ok token)
  /-- A character that starts no token. -/
  | stray (hmark : mark? c = none) : Taken c rest ([c], .error .invalidSymbol)

/-- **Inversion of a lexeme**: what is taken is one of the cases of `Taken`. -/
theorem taken_take (c : Char) (rest : List Char) : Taken c rest (take c rest) := by
  unfold take
  dsimp only
  split
  · next hdigit => exact .number hdigit
  · split
    · next hletter =>
        split
        · next body =>
            split
            · next hconstant => exact .constant body rfl hconstant
            · exact .name hletter
        · exact .name hletter
    · split
      · next d more _ _ =>
          split
          · next hdigit => exact .literalWord d more rfl rfl hdigit
          · exact .mark .equals rfl
      · split
        · next token hmark => exact .mark token hmark
        · next hmark => exact .stray hmark

/-- **Taken tokens are written**: a lexeme stands for a token that can make a literal. -/
theorem written_of_take {c : Char} {rest : List Char} {token : Token}
    (h : (take c rest).2 = .ok token) : token.Written := by
  have htaken := taken_take c rest
  generalize take c rest = taken at htaken h
  cases htaken with
  | number =>
      obtain ⟨value, -, rfl⟩ := exists_of_map_eq_ok h
      trivial
  | constant => exact written_of_takeConstant h
  | name =>
      cases h
      trivial
  | literalWord =>
      obtain ⟨value, hread, rfl⟩ := exists_of_map_eq_ok h
      exact lt_of_readWord hread
  | mark mark hmark =>
      cases h
      unfold mark? at hmark
      split at hmark <;> cases hmark <;> trivial
  | stray => cases h

/-- A lexeme is taken from some place of the field. -/
theorem exists_take_of_mem_scanFrom {covered : Nat} {passed field : List Char} {lexeme : Lexeme}
    (h : lexeme ∈ scanFrom covered passed field) :
    ∃ c rest, c :: rest <:+ field ∧ lexeme.reading = (take c rest).2 := by
  fun_induction scanFrom covered passed field with
  | case1 => cases h
  | case2 covered passed c rest ih =>
      obtain ⟨d, more, hsuffix, hreading⟩ := ih h
      exact ⟨d, more, hsuffix.trans (List.suffix_cons c rest), hreading⟩
  | case3 passed c rest hgap ih =>
      obtain ⟨d, more, hsuffix, hreading⟩ := ih h
      exact ⟨d, more, hsuffix.trans (List.suffix_cons c rest), hreading⟩
  | case4 passed c rest hgap taken ih =>
      rcases List.mem_cons.mp h with rfl | hrest
      · exact ⟨c, rest, List.suffix_rfl, rfl⟩
      · obtain ⟨d, more, hsuffix, hreading⟩ := ih hrest
        exact ⟨d, more, hsuffix.trans (List.suffix_cons c rest), hreading⟩

end Lexeme

/-! ## operands -/

namespace Operand

/-- A literal operand can be written, if its tokens can. -/
theorem written_of_ofTokens {tokens : List Token} {text : List Char} {value : Literal}
    (htokens : ∀ token ∈ tokens, token.Written) (h : ofTokens tokens text = .ok (.literal value)) :
    value.Written := by
  unfold ofTokens at h
  split at h <;> cases h
  · exact htokens _ (List.mem_cons_of_mem _ List.mem_cons_self)
  · exact htokens _ List.mem_cons_self

/-- An operand is formed by tokens of the lexemes. -/
theorem exists_tokens_of_mem_readFrom {tokens : List Token} {text : List Char}
    {lexemes : List Lexeme} {operands : List Operand} {operand : Operand}
    (h : readFrom tokens text lexemes = .ok operands) (hmem : operand ∈ operands) :
    ∃ group written, ofTokens group written = .ok operand ∧
      ∀ token ∈ group, token ∈ tokens ∨ ∃ lexeme ∈ lexemes, lexeme.reading = .ok token := by
  fun_induction readFrom tokens text lexemes generalizing operands with
  | case1 tokens text =>
      obtain ⟨found, hof, rfl⟩ := exists_of_map_eq_ok h
      rw [List.mem_singleton] at hmem
      exact ⟨tokens, text, hmem ▸ hof, fun token => Or.inl⟩
  | case2 tokens text lexeme rest error hreading => cases h
  | case3 tokens text lexeme rest hreading error hof => cases h
  | case4 tokens text lexeme rest hreading found hof ih =>
      obtain ⟨others, hrest, rfl⟩ := exists_of_map_eq_ok h
      rcases List.mem_cons.mp hmem with rfl | hother
      · exact ⟨tokens, text, hof, fun token => Or.inl⟩
      · obtain ⟨group, written, hgroup, htokens⟩ := ih hrest hother
        refine ⟨group, written, hgroup, fun token htoken => Or.inr ?_⟩
        rcases htokens token htoken with hnone | ⟨next, hnext, hread⟩
        · cases hnone
        · exact ⟨next, List.mem_cons_of_mem _ hnext, hread⟩
  | case5 tokens text lexeme rest token hcomma hreading ih =>
      obtain ⟨group, written, hgroup, htokens⟩ := ih h hmem
      refine ⟨group, written, hgroup, fun other hother => ?_⟩
      rcases htokens other hother with hold | ⟨next, hnext, hread⟩
      · rcases List.mem_append.mp hold with hbefore | hthis
        · exact Or.inl hbefore
        · rw [List.mem_singleton.mp hthis]
          exact Or.inr ⟨lexeme, List.mem_cons_self, hreading⟩
      · exact Or.inr ⟨next, List.mem_cons_of_mem _ hnext, hread⟩

/-- **The origin of operands**: each of them is formed by tokens that are taken from the field. -/
theorem exists_tokens_of_mem_readAll {field : String} {operands : List Operand}
    {operand : Operand} (h : readAll field = .ok operands) (hmem : operand ∈ operands) :
    ∃ group written, ofTokens group written = .ok operand ∧
      ∀ token ∈ group, ∃ c rest, c :: rest <:+ field.toList ∧
        (Lexeme.take c rest).2 = .ok token := by
  unfold readAll at h
  split at h
  · cases h
    cases hmem
  · obtain ⟨group, written, hgroup, htokens⟩ := exists_tokens_of_mem_readFrom h hmem
    refine ⟨group, written, hgroup, fun token htoken => ?_⟩
    rcases htokens token htoken with hnone | ⟨lexeme, hlexeme, hread⟩
    · cases hnone
    · obtain ⟨c, rest, hsuffix, htake⟩ := Lexeme.exists_take_of_mem_scanFrom hlexeme
      exact ⟨c, rest, hsuffix, htake ▸ hread⟩

/-- **Read literals are written**: every literal among the operands of a field is one that can
stand in a field. -/
theorem written_of_mem_readAll {field : String} {operands : List Operand} {value : Literal}
    (h : readAll field = .ok operands) (hmem : .literal value ∈ operands) : value.Written := by
  obtain ⟨group, written, hgroup, htokens⟩ := exists_tokens_of_mem_readAll h hmem
  refine written_of_ofTokens (fun token htoken => ?_) hgroup
  obtain ⟨c, rest, -, htake⟩ := htokens token htoken
  exact Lexeme.written_of_take htake

end Operand

end SicXe
