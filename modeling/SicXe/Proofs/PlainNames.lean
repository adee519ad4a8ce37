import SicXe.Proofs.LayoutStep
import SicXe.Proofs.RecordText
import SicXe.Proofs.WrittenLiteral

/-!
# SicXe.Proofs.PlainNames

The names in a source text are plain.

A label is a trimmed field of a line, a symbol consists of word characters, and the text of a
literal ends with a quote or a digit; so none of them has a blank at its end, and as they stand in a
line, none of them has a line feed in it.  That is so of the names of every statement that is laid
out (`plainNames_of_mem_addLines`).
-/

namespace SicXe

namespace Text

/-! ## characters -/

/-- The codes of the blanks. -/
def blankCodes : List Nat :=
  [0x09, 0x0A, 0x0B, 0x0C, 0x0D, 0x20, 0x85, 0xA0, 0x1680, 0x2000, 0x2001, 0x2002, 0x2003, 0x2004,
   0x2005, 0x2006, 0x2007, 0x2008, 0x2009, 0x200A, 0x2028, 0x2029, 0x202F, 0x205F, 0x3000]

theorem mem_blankCodes_of_isBlank {c : Char} (h : isBlank c = true) : c.toNat ∈ blankCodes := by
  simp only [isBlank, Bool.or_eq_true, Bool.and_eq_true, decide_eq_true_eq, beq_iff_eq] at h
  simp only [blankCodes, List.mem_cons, List.not_mem_nil, or_false]
  omega

/-- A class of characters that holds the code of no blank holds no blank. -/
theorem isBlank_of_class {p : Char → Bool}
    (hp : ∀ code ∈ blankCodes, p (Char.ofNat code) = false) {c : Char} (h : p c = true) :
    isBlank c = false := by
  cases hblank : isBlank c with
  | false => rfl
  | true =>
      have hcode := hp _ (mem_blankCodes_of_isBlank hblank)
      rw [Char.ofNat_toNat, h] at hcode
      cases hcode

/-- A character of a word is no blank. -/
theorem isBlank_of_isWordChar {c : Char} (h : isWordChar c = true) : isBlank c = false :=
  isBlank_of_class (by decide +kernel) h

/-- A name without blanks is plain. -/
theorem Plain.of_forall {name : List Char} (h : ∀ c ∈ name, isBlank c = false) : Plain name := by
  refine ⟨fun hfeed => ?_, fun c hlast => h c (List.mem_of_getLast? hlast)⟩
  have hblank := h '\n' hfeed
  revert hblank
  decide

/-! ## fields and lines -/

theorem trim_sublist (cs : List Char) : (trim cs).Sublist cs := by
  have hfront : (cs.dropWhile isBlank).Sublist cs := List.dropWhile_sublist isBlank
  have hback : (((cs.dropWhile isBlank).reverse).dropWhile isBlank).reverse.Sublist
      (cs.dropWhile isBlank).reverse.reverse := (List.dropWhile_sublist isBlank).reverse
  rw [List.reverse_reverse] at hback
  exact hback.trans hfront

theorem mem_of_mem_trim {c : Char} {cs : List Char} (h : c ∈ trim cs) : c ∈ cs :=
  (trim_sublist cs).subset h

/-- A text of one line is plain once it is trimmed. -/
theorem plain_trim {cs : List Char} (h : '\n' ∉ cs) : Plain (trim cs) := by
  refine ⟨fun hfeed => h (mem_of_mem_trim hfeed), fun c hlast => ?_⟩
  have hhead := List.head?_dropWhile_not isBlank (cs.dropWhile isBlank).reverse
  rw [trim, trimEnd, List.getLast?_reverse] at hlast
  rw [Option.mem_def.mp hlast] at hhead
  exact hhead

/-- A piece has only characters of the text, and none of them separates. -/
theorem mem_of_mem_pieces {separator : Char} {cs piece : List Char}
    (h : piece ∈ pieces separator cs) : ∀ c ∈ piece, c ∈ cs ∧ c ≠ separator := by
  induction cs generalizing piece with
  | nil =>
      rw [pieces, List.foldr_nil, List.mem_singleton] at h
      simp [h]
  | cons first rest ih =>
      have hlater : ∀ other ∈ pieces separator rest, ∀ c ∈ other,
          c ∈ first :: rest ∧ c ≠ separator := by
        intro other hother c hc
        obtain ⟨hmem, hne⟩ := ih hother c hc
        exact ⟨List.mem_cons_of_mem _ hmem, hne⟩
      rw [pieces_cons] at h
      split at h
      · rcases List.mem_cons.mp h with rfl | hrest
        · simp
        · exact hlater piece hrest
      · next hfirst =>
          split at h
          · rw [List.mem_singleton.mp h]
            simpa using hfirst
          · next head more hpieces =>
              rw [hpieces] at hlater
              rcases List.mem_cons.mp h with rfl | hrest
              · rw [List.forall_mem_cons]
                exact ⟨⟨List.mem_cons_self, hfirst⟩, hlater head List.mem_cons_self⟩
              · exact hlater piece (List.mem_cons_of_mem _ hrest)

/-- A line has only characters of one piece. -/
theorem mem_of_mem_linesOfPieces {line : List Char} {pieces : List (List Char)}
    (h : line ∈ linesOfPieces pieces) : ∃ piece ∈ pieces, ∀ c ∈ line, c ∈ piece := by
  fun_induction linesOfPieces pieces with
  | case1 => cases h
  | case2 => cases h
  | case3 last hne =>
      rw [List.mem_singleton.mp h]
      exact ⟨last, List.mem_cons_self, fun c hc => hc⟩
  | case4 piece more hmore ih =>
      rcases List.mem_cons.mp h with rfl | hrest
      · refine ⟨piece, List.mem_cons_self, fun c hc => ?_⟩
        unfold dropReturn at hc
        split at hc
        · exact (List.dropLast_sublist piece).subset hc
        · exact hc
      · obtain ⟨other, hother, hsub⟩ := ih hrest
        exact ⟨other, List.mem_cons_of_mem _ hother, hsub⟩

/-- Lines have no line feed in them. -/
theorem notMem_of_mem_lines {source line : String} (h : line ∈ lines source) :
    '\n' ∉ line.toList := by
  obtain ⟨cs, hcs, rfl⟩ := List.mem_map.mp h
  obtain ⟨piece, hpiece, hsub⟩ := mem_of_mem_linesOfPieces hcs
  rw [String.toList_ofList]
  intro hfeed
  exact (mem_of_mem_pieces hpiece '\n' (hsub '\n' hfeed)).2 rfl

end Text

namespace LineFields

/-- A field is the trimmed text of its column. -/
theorem eq_trim_of_field? {cs : List Char} {text : String} (h : field? cs = some text) :
    text.toList = Text.trim cs := by
  unfold field? at h
  split at h
  · cases h
  · cases h
    rw [String.toList_ofList]

/-- The columns for label and operands have only characters of the line, and no tab. -/
theorem mem_of_mem_cut (line : List Char) (c : Char) :
    (c ∈ (cut line).1 → c ∈ line ∧ c ≠ '\t') ∧ (c ∈ (cut line).2.2.1 → c ∈ line ∧ c ≠ '\t') := by
  have hpieces : ∀ piece ∈ Text.pieces '\t' line, c ∈ piece → c ∈ line ∧ c ≠ '\t' :=
    fun piece hpiece hc => Text.mem_of_mem_pieces hpiece c hc
  unfold cut
  split
  · simp
  · next label hcut =>
      rw [hcut] at hpieces
      exact ⟨hpieces label (by simp), by simp⟩
  · next label operator hcut =>
      rw [hcut] at hpieces
      exact ⟨hpieces label (by simp), by simp⟩
  · next label operator operands comment hcut =>
      rw [hcut] at hpieces
      exact ⟨hpieces label (by simp), hpieces operands (by simp)⟩

theorem fields_of_read {line : String} {fields : LineFields}
    (h : read line = .ok (some fields)) :
    fields.label = field? (cut line.toList).1 ∧
      fields.operands = field? (cut line.toList).2.2.1 := by
  unfold read at h
  split at h
  · cases h
  · dsimp only at h
    split at h
    · cases h
    · split at h
      · cases h
      · cases h
        exact ⟨rfl, rfl⟩

/-- The label of a line is plain, and its operand field has no line feed in it. -/
theorem plain_of_read {line : String} {fields : LineFields} (hline : '\n' ∉ line.toList)
    (h : read line = .ok (some fields)) :
    (∀ label ∈ fields.label, Text.Plain label.toList) ∧
      ∀ field ∈ fields.operands, '\n' ∉ field.toList := by
  obtain ⟨hlabel, hoperands⟩ := fields_of_read h
  obtain ⟨hfirst, hthird⟩ := mem_of_mem_cut line.toList '\n'
  constructor
  · intro label hfield
    rw [hlabel] at hfield
    rw [eq_trim_of_field? hfield]
    exact Text.plain_trim fun hfeed => hline (hfirst hfeed).1
  · intro field hfield hfeed
    rw [hoperands] at hfield
    rw [eq_trim_of_field? hfield] at hfeed
    exact hline (hthird (Text.mem_of_mem_trim hfeed)).1

/-- A label has no tab in it. -/
theorem tab_notMem_label_of_read {line : String} {fields : LineFields}
    (h : read line = .ok (some fields)) : ∀ label ∈ fields.label, '\t' ∉ label.toList := by
  intro label hfield htab
  rw [(fields_of_read h).1] at hfield
  rw [eq_trim_of_field? hfield] at htab
  exact ((mem_of_mem_cut line.toList '\t').1 (Text.mem_of_mem_trim htab)).2 rfl

end LineFields

/-! ## operands -/

/-- Hexadecimal text stays on its line. -/
theorem Bytes.notMem_toHex (bytes : List UInt8) : '\n' ∉ (toHex bytes).toList := by
  rw [toHex, String.toList_ofList]
  exact (Text.IsLine.flatMap fun byte _ => Text.isLine_hexPadded ..).oneLine

/-- What a token has to be for the names made of it to be plain. -/
def Token.Plain : Token → Prop
  | name text => Text.Plain text.toList
  | constant value => '\n' ∉ value.text.toList
  | _ => True

namespace Lexeme

/-- A name that the scanner takes is plain. -/
theorem plain_takeName {c : Char} (h : startsName c = true) (rest : List Char) :
    Text.Plain (takeName c rest).1 := by
  have hfirst : Text.isBlank c = false := Text.isBlank_of_class (by decide) h
  apply Text.Plain.of_forall
  rw [takeName, List.forall_mem_cons]
  refine ⟨hfirst, fun d hd => Text.isBlank_of_isWordChar ?_⟩
  exact List.all_eq_true.mp List.all_takeWhile d hd

/-- A constant from one line has a text on one line. -/
theorem notMem_of_readConstant {letter : Char} {body : List Char} {value : Constant}
    (hbody : '\n' ∉ body) (h : readConstant letter body = .ok value) :
    '\n' ∉ value.text.toList := by
  unfold readConstant at h
  split at h
  · cases h
  · split at h
    · cases h
      simpa [Constant.text] using hbody
    · split at h
      · cases h
      · split at h
        · cases h
        · cases h
          simp [Constant.text, Bytes.notMem_toHex]

/-- A constant that the scanner takes from one line is plain. -/
theorem plain_of_takeConstant {letter : Char} {rest : List Char} {token : Token}
    (hfield : '\n' ∉ rest) (h : (takeConstant letter rest).2 = .ok token) : token.Plain := by
  unfold takeConstant at h
  dsimp only at h
  split at h
  · cases h
  · obtain ⟨value, hread, rfl⟩ := exists_of_map_eq_ok h
    refine notMem_of_readConstant (fun hfeed => hfield ?_) hread
    exact (List.takeWhile_sublist _).subset hfeed

/-- **Taken names are plain**, and taken constants have no line feed in them. -/
theorem plain_of_take {c : Char} {rest : List Char} {token : Token} (hfield : '\n' ∉ rest)
    (h : (take c rest).2 = .ok token) : token.Plain := by
  -- Names are made of word characters; only a constant can hold any character of the field.
  have htaken := taken_take c rest
  generalize take c rest = taken at htaken h
  cases htaken with
  | number =>
      obtain ⟨value, -, rfl⟩ := exists_of_map_eq_ok h
      trivial
  | constant body hrest =>
      have hbody : '\n' ∉ body := fun hfeed => hfield (hrest ▸ List.mem_cons_of_mem _ hfeed)
      exact plain_of_takeConstant hbody h
  | name hletter =>
      cases h
      rw [Token.Plain, String.toList_ofList]
      exact plain_takeName hletter rest
  | literalWord =>
      obtain ⟨value, -, rfl⟩ := exists_of_map_eq_ok h
      trivial
  | mark mark hmark =>
      cases h
      unfold mark? at hmark
      split at hmark <;> cases hmark <;> trivial
  | stray => cases h

end Lexeme

namespace Operand

/-- The names in an operand. -/
def names : Operand → List String
  | symbol name | immediate (.symbol name) | indirect (.symbol name) => [name]
  | literal value => [value.text]
  | difference minuend subtrahend => [minuend, subtrahend]
  | _ => []

/-- The symbol of an operand is one of its names. -/
theorem mem_names_of_symbol? {operand : Operand} {name : String}
    (h : operand.symbol? = some name) : name ∈ operand.names := by
  unfold symbol? at h
  split at h <;> cases h <;> exact List.mem_singleton_self _

/-- What an operand is looked up by is one of its names. -/
theorem mem_names_of_lookupName? {operand : Operand} {name : String}
    (h : operand.lookupName? = some name) : name ∈ operand.names := by
  unfold lookupName? at h
  split at h
  · cases h
    exact List.mem_singleton_self _
  · exact mem_names_of_symbol? h

/-- The names in an operand are those of its tokens and the texts of literals. -/
theorem mem_names_of_ofTokens {tokens : List Token} {text : List Char} {operand : Operand}
    (h : ofTokens tokens text = .ok operand) {name : String} (hname : name ∈ operand.names) :
    .name name ∈ tokens ∨
      (∃ value, .constant value ∈ tokens ∧ name = (Literal.bytes value).text) ∨
      ∃ value, .literalWord value ∈ tokens ∧ name = (Literal.word value).text := by
  unfold ofTokens at h
  split at h <;> cases h <;> simp_all [names]

/-- The text of a literal constant from one line is plain. -/
theorem plain_text_bytes {constant : Constant} (h : '\n' ∉ constant.text.toList) :
    Text.Plain (Literal.bytes constant).text.toList := by
  refine ⟨by simpa [Literal.text] using h, fun c hlast => ?_⟩
  have hquote : (Literal.bytes constant).text.toList.getLast? = some '\'' := by
    cases constant <;> simp [Literal.text, Constant.text, List.getLast?_cons]
  rw [hquote] at hlast
  cases hlast
  decide

theorem plain_text_word (value : Nat) : Text.Plain (Literal.word value).text.toList := by
  have hdigit : ∀ d < 16, Text.isBlank (Text.hexDigit d) = false := by decide
  apply Text.Plain.of_forall
  intro c hc
  rw [Literal.text, Text.hex, String.toList_append, List.mem_append] at hc
  rcases hc with hsign | hdigits
  · rw [List.mem_singleton.mp hsign]
    decide
  · rw [String.toList_ofList] at hdigits
    obtain ⟨d, hd, rfl⟩ := Text.exists_hexDigit_of_mem hdigits
    exact hdigit d hd

/-- **The names in operands are plain.** -/
theorem plain_of_mem_readAll {field : String} {operands : List Operand}
    (hfield : '\n' ∉ field.toList) (h : readAll field = .ok operands) {operand : Operand}
    (hmem : operand ∈ operands) : ∀ name ∈ operand.names, Text.Plain name.toList := by
  obtain ⟨group, written, hgroup, htokens⟩ := exists_tokens_of_mem_readAll h hmem
  have hplain : ∀ token ∈ group, token.Plain := by
    intro token htoken
    obtain ⟨c, rest, hsuffix, htake⟩ := htokens token htoken
    exact Lexeme.plain_of_take
      (fun hfeed => hfield (hsuffix.subset (List.mem_cons_of_mem _ hfeed))) htake
  intro name hname
  rcases mem_names_of_ofTokens hgroup hname with hin | ⟨value, hin, rfl⟩ | ⟨value, -, rfl⟩
  · exact hplain _ hin
  · exact plain_text_bytes (hplain _ hin)
  · exact plain_text_word value

end Operand

/-! ## statements -/

/-- The names of a statement are plain. -/
structure Statement.PlainNames (statement : Statement) : Prop where
  label : ∀ label ∈ statement.label, Text.Plain label.toList
  operands : ∀ operand ∈ statement.operands, ∀ name ∈ operand.names, Text.Plain name.toList

namespace Layout

/-- **One line** gives a statement with plain names only. -/
theorem plainNames_of_draft {registry : Registry} {number : Nat} {text : String}
    {statement : Statement} (htext : '\n' ∉ text.toList)
    (h : draft registry number text = .ok (some statement)) : statement.PlainNames := by
  obtain ⟨fields, hread, hfields⟩ := exists_fields_of_draft h
  obtain ⟨hlabel, hoperands⟩ := LineFields.plain_of_read htext hread
  unfold draftFields at hfields
  dsimp only at hfields
  split at hfields
  · cases hfields
    exact ⟨hlabel, by simp⟩
  · next field hfield =>
      split at hfields
      · cases hfields
      · next operands hall =>
          cases hfields
          refine ⟨hlabel, fun operand hmem => ?_⟩
          exact Operand.plain_of_mem_readAll (hoperands field hfield) hall hmem

/-- **The names of laid-out statements are plain**, as those of the lines are. -/
theorem plainNames_of_mem_addLines {registry : Registry} {lines : List (Nat × String)}
    (hlines : ∀ line ∈ lines, '\n' ∉ line.2.toList) :
    ∀ statement ∈ (addLines registry {} lines).1.statements, statement.PlainNames := by
  intro statement hmem
  obtain ⟨line, hline, drafted, address, length, hdraft, rfl⟩ :=
    exists_draft_of_mem_addLines statement hmem
  obtain ⟨hlabel, hoperands⟩ := plainNames_of_draft (hlines line hline) hdraft
  exact ⟨hlabel, hoperands⟩

end Layout

/-- The lines of a section have no line feed in them. -/
theorem Program.feed_notMem_of_mem_section {source : String} {lines : List (Nat × String)}
    {line : Nat × String} (hlines : lines ∈ (cutSections (numberedLines source)).2)
    (h : line ∈ lines) : '\n' ∉ line.2.toList := by
  have hnumbered := mem_numberedLines_of_mem_section hlines h
  obtain ⟨indexed, hindexed, rfl⟩ := List.mem_map.mp hnumbered
  exact Text.notMem_of_mem_lines (List.fst_mem_of_mem_zipIdx hindexed)

end SicXe
