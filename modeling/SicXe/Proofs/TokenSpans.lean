import SicXe.Proofs.SourceBytes

/-!
# SicXe.Proofs.TokenSpans

Where the lexemes of a field lie.

A lexeme is a piece of the field, and it is the same lexeme if it stands alone: nothing that follows
it has a part in how it is read (`take_whole`, by the kinds of lexeme).  Scanning leaves out gaps
only, so the lexemes with the gaps before them make up the field again (`scanFrom_pieces`, along the
recursion of `scanFrom`).  The spans count the bytes of these pieces, and so they lie one behind
another and cover everything that is no gap.
-/

namespace SicXe

namespace Lexeme

/-! ## a lexeme by itself -/

section
variable {c : Char} {rest : List Char}

/-- What is taken from a text is the front of it, and it is taken from that front alone as well. -/
def TakenAlone (c : Char) (rest : List Char) : Prop :=
  ∃ more, more <+: rest ∧ (take c rest).1 = c :: more ∧ take c more = take c rest

/-- A number is taken from its own text as it is from a longer one. -/
theorem takenAlone_number (hdigit : Text.isDecimalDigit c = true) : TakenAlone c rest := by
  refine ⟨_, List.takeWhile_prefix Text.isWordChar, ?_, ?_⟩
  · rw [take_number hdigit]
  · rw [take_number hdigit, take_number hdigit, List.takeWhile_idem]

/-- So is a name. -/
theorem takenAlone_name (hletter : startsName c = true) (htake : take c rest = takeName c rest) :
    TakenAlone c rest := by
  have hquote : (rest.takeWhile Text.isWordChar).head? ≠ some '\'' := by
    intro hhead
    have hword := List.mem_takeWhile_imp (List.mem_of_mem_head? hhead)
    exact absurd hword (by decide)
  refine ⟨_, List.takeWhile_prefix Text.isWordChar, ?_, ?_⟩
  · rw [htake]
    rfl
  · rw [take_name hletter hquote, htake, takeName, takeName, List.takeWhile_idem]

/-- A letter of a constant before a quote takes the constant. -/
theorem take_startsConstant (h : startsConstant c = true) (body : List Char) :
    take c ('\'' :: body) = takeConstant c body := by
  simp only [startsConstant, Bool.or_eq_true, beq_iff_eq] at h
  rcases h with ((rfl | rfl) | rfl) | rfl <;> rfl

/-- Up to its first quote a text goes on with that quote. -/
theorem takeWhile_append_quote {body : List Char}
    (h : (body.takeWhile (· != '\'')).length ≠ body.length) :
    body.takeWhile (· != '\'') ++ ['\''] <+: body := by
  have hsplit : body.takeWhile (· != '\'') ++ body.dropWhile (· != '\'') = body :=
    List.takeWhile_append_dropWhile
  cases hdrop : body.dropWhile (· != '\'') with
  | nil =>
      rw [hdrop, List.append_nil] at hsplit
      exact absurd (congrArg List.length hsplit) h
  | cons quote following =>
      have hhead := List.head_dropWhile_not (· != '\'') (l := body) (by simp [hdrop])
      have hquote : quote = '\'' := by simpa [hdrop] using hhead
      rw [hdrop, hquote] at hsplit
      exact ⟨following, by rw [List.append_assoc, List.singleton_append, hsplit]⟩

/-- A constant ends with its closing quote or takes everything. -/
theorem takenAlone_constant (h : startsConstant c = true) (body : List Char) :
    TakenAlone c ('\'' :: body) := by
  by_cases hclosed : (body.takeWhile (· != '\'')).length = body.length
  · refine ⟨'\'' :: body, List.prefix_rfl, ?_, rfl⟩
    rw [take_startsConstant h, takeConstant, if_pos hclosed]
  · refine ⟨'\'' :: (body.takeWhile (· != '\'') ++ ['\'']), ?_, ?_, ?_⟩
    · exact (List.prefix_cons_inj _).mpr (takeWhile_append_quote hclosed)
    · rw [take_startsConstant h, takeConstant, if_neg hclosed]
    · have hbody : (body.takeWhile (· != '\'') ++ ['\'']).takeWhile (· != '\'') =
          body.takeWhile (· != '\'') :=
        takeWhile_append_eq (List.all_eq_true.mp List.all_takeWhile) (by simp)
      rw [take_startsConstant h, take_startsConstant h, takeConstant, takeConstant, hbody,
        if_neg hclosed, if_neg (by simp)]

/-- A literal word is taken from its own text as well. -/
theorem takenAlone_literalWord {d : Char} {more : List Char}
    (hdigit : Text.isDecimalDigit d = true) : TakenAlone '=' (d :: more) := by
  refine ⟨d :: more.takeWhile Text.isWordChar, ?_, ?_, ?_⟩
  · exact (List.prefix_cons_inj _).mpr (List.takeWhile_prefix _)
  · rw [take_equals, if_pos hdigit]
  · rw [take_equals, take_equals, if_pos hdigit, if_pos hdigit, List.takeWhile_idem]

/-- A character that starts nothing longer is taken by itself, as a mark or as a stray one. -/
theorem takenAlone_single (hdigit : Text.isDecimalDigit c = false)
    (hletter : startsName c = false)
    (hsign : c = '=' → ∀ d ∈ rest.head?, Text.isDecimalDigit d = false) : TakenAlone c rest := by
  have hsame : ∀ following, (c = '=' → ∀ d ∈ following.head?, Text.isDecimalDigit d = false) →
      take c following = ([c], (mark? c).elim (.error .invalidSymbol) .ok) := by
    intro following hfollowing
    by_cases hequals : c = '='
    · subst hequals
      cases following with
      | nil => rfl
      | cons d more => rw [take_equals, if_neg (by simp [hfollowing rfl d rfl])]; rfl
    · unfold take
      simp only [hdigit, hletter, Bool.false_eq_true, if_false]
      split
      · exact absurd rfl hequals
      · cases mark? c <;> rfl
  refine ⟨[], List.nil_prefix, ?_, ?_⟩
  · rw [hsame rest hsign]
  · rw [hsame rest hsign, hsame [] (by simp)]

/-- **A lexeme is whole**: it is a piece of the text, and the same lexeme by itself. -/
theorem take_whole (c : Char) (rest : List Char) : TakenAlone c rest := by
  by_cases hdigit : Text.isDecimalDigit c = true
  · exact takenAlone_number hdigit
  · have hdigit : Text.isDecimalDigit c = false := by simpa using hdigit
    by_cases hletter : startsName c = true
    · cases rest with
      | nil => exact takenAlone_name hletter (take_name hletter (by simp))
      | cons d more =>
          by_cases hquote : d = '\''
          · subst hquote
            by_cases hconstant : startsConstant c = true
            · exact takenAlone_constant hconstant more
            · refine takenAlone_name hletter ?_
              unfold take
              simp [hdigit, hletter, hconstant]
          · exact takenAlone_name hletter (take_name hletter (by simpa using hquote))
    · have hletter : startsName c = false := by simpa using hletter
      by_cases hsign : c = '='
      · subst hsign
        cases rest with
        | nil => exact takenAlone_single hdigit hletter (by simp)
        | cons d more =>
            by_cases hd : Text.isDecimalDigit d = true
            · exact takenAlone_literalWord hd
            · exact takenAlone_single hdigit hletter (by simpa using hd)
      · exact takenAlone_single hdigit hletter (fun h => absurd h hsign)

end

/-! ## the pieces of a field -/

/-- What a lexeme of a field is: a gap of spaces and tabs, and a text that is read so alone. -/
structure Stands (lexeme : Lexeme) : Prop where
  gap : ∀ c ∈ lexeme.gap, isGap c = true
  text : ∃ c more, lexeme.text = c :: more ∧ isGap c = false ∧
    take c more = (lexeme.text, lexeme.reading)

/-- Lexemes as they are written, each behind its gap. -/
def written (lexemes : List Lexeme) : List Char :=
  lexemes.flatMap fun lexeme => lexeme.gap ++ lexeme.text

@[simp] theorem written_cons (lexeme : Lexeme) (lexemes : List Lexeme) :
    written (lexeme :: lexemes) = lexeme.gap ++ (lexeme.text ++ written lexemes) := by
  simp [written]

/-- **Lexemes make up the field**: what scanning does not cover yet is the lexemes it gives, each
behind its gap, and a gap at the end. -/
theorem scanFrom_pieces (covered : Nat) (passed field : List Char)
    (hpassed : ∀ c ∈ passed, isGap c = true) :
    (∀ lexeme ∈ scanFrom covered passed field, lexeme.Stands) ∧
    ∃ tail, (∀ c ∈ tail, isGap c = true) ∧
      passed.reverse ++ field.drop covered = written (scanFrom covered passed field) ++ tail := by
  fun_induction scanFrom covered passed field with
  | case1 covered passed =>
      exact ⟨by simp, passed.reverse, by simpa using hpassed, by simp [written]⟩
  | case2 covered passed c rest ih => exact ih hpassed
  | case3 passed c rest hgap ih =>
      obtain ⟨hstands, tail, htail, hpieces⟩ := ih (List.forall_mem_cons.mpr ⟨hgap, hpassed⟩)
      exact ⟨hstands, tail, htail, by simpa using hpieces⟩
  | case4 passed c rest hgap taken ih =>
      obtain ⟨hstands, tail, htail, hpieces⟩ := ih (by simp)
      obtain ⟨more, ⟨following, hrest⟩, htext, halone⟩ := take_whole c rest
      refine ⟨List.forall_mem_cons.mpr ⟨⟨by simpa using hpassed, ?_⟩, hstands⟩, tail, htail, ?_⟩
      · exact ⟨c, more, htext, by simpa using hgap, halone⟩
      · -- Behind the lexeme stands what is left when its characters are passed.
        have hbehind : rest.drop (taken.1.length - 1) = following := by
          rw [show taken.1 = c :: more from htext, ← hrest]
          simp
        rw [hbehind, List.reverse_nil, List.nil_append] at hpieces
        rw [written_cons, List.append_assoc, List.append_assoc, ← hpieces, List.drop_zero,
          show taken.1 = c :: more from htext, ← hrest]
        rfl

/-- **A piece by itself** is scanned as the one lexeme it is, with the same reading. -/
theorem scan_text {lexeme : Lexeme} (h : lexeme.Stands) :
    scan lexeme.text = [⟨[], lexeme.text, lexeme.reading⟩] := by
  obtain ⟨c, more, htext, hgap, halone⟩ := h.text
  have hrest := scanFrom_append more [] []
  rw [List.append_nil] at hrest
  rw [scan, htext, scanFrom, if_neg (by simp [hgap]), halone]
  simp [htext, hrest, scanFrom]

/-! ## spans -/

@[simp] theorem byteLength_append (first second : List Char) :
    byteLength (first ++ second) = byteLength first + byteLength second := by
  induction first with
  | nil => simp [byteLength]
  | cons c rest ih => simp [ih, Nat.add_assoc]

/-- No lexeme is empty. -/
theorem Stands.byteLength_pos {lexeme : Lexeme} (h : lexeme.Stands) :
    0 < byteLength lexeme.text := by
  obtain ⟨c, more, htext, -, -⟩ := h.text
  have hpos := c.utf8Size_pos
  rw [htext, byteLength_cons]
  omega

@[simp] theorem length_spansFrom (offset : Nat) (lexemes : List Lexeme) :
    (spansFrom offset lexemes).length = lexemes.length := by
  induction lexemes generalizing offset with
  | nil => rfl
  | cons lexeme rest ih => simp [spansFrom, ih]

/-- Where a span lies: behind all that is written before its lexeme. -/
theorem exists_of_mem_zip_spansFrom {offset : Nat} {lexemes : List Lexeme} {span : Nat × Nat}
    {lexeme : Lexeme} (h : (span, lexeme) ∈ (spansFrom offset lexemes).zip lexemes) :
    ∃ before after, written lexemes = before ++ lexeme.text ++ after ∧
      span = (offset + byteLength before, offset + byteLength (before ++ lexeme.text)) := by
  induction lexemes generalizing offset with
  | nil => simp [spansFrom] at h
  | cons first rest ih =>
      rw [spansFrom, List.zip_cons_cons, List.mem_cons] at h
      rcases h with hfirst | hrest
      · obtain ⟨rfl, rfl⟩ := Prod.mk.inj hfirst
        exact ⟨lexeme.gap, written rest, by simp, by simp [Nat.add_assoc]⟩
      · obtain ⟨before, after, hwritten, rfl⟩ := ih hrest
        refine ⟨first.gap ++ first.text ++ before, after, by simp [hwritten], ?_⟩
        simp [Nat.add_assoc]

/-- Spans lie behind the offset they are counted from. -/
theorem le_of_mem_spansFrom {offset : Nat} {lexemes : List Lexeme} {span : Nat × Nat}
    (h : span ∈ spansFrom offset lexemes) : offset ≤ span.1 := by
  induction lexemes generalizing offset with
  | nil => cases h
  | cons lexeme rest ih =>
      rcases List.mem_cons.mp h with rfl | hrest
      · exact Nat.le_add_right _ _
      · have hstart := ih hrest
        omega

/-- Each span ends before the next one starts. -/
theorem pairwise_spansFrom (offset : Nat) (lexemes : List Lexeme) :
    (spansFrom offset lexemes).Pairwise fun first second => first.2 ≤ second.1 := by
  induction lexemes generalizing offset with
  | nil => exact .nil
  | cons lexeme rest ih =>
      rw [spansFrom]
      exact List.pairwise_cons.mpr ⟨fun span hspan => le_of_mem_spansFrom hspan, ih _⟩

/-! ## bytes outside -/

/-- The bytes of characters in UTF-8. -/
def bytesOf (cs : List Char) : List UInt8 :=
  cs.flatMap String.utf8EncodeChar

theorem bytesOf_append (first second : List Char) :
    bytesOf (first ++ second) = bytesOf first ++ bytesOf second :=
  List.flatMap_append

/-- A text has as many bytes as its characters take. -/
theorem length_bytesOf (cs : List Char) : (bytesOf cs).length = byteLength cs := by
  have hbytes := Bytes.length_ofText (String.ofList cs)
  rwa [← byteLength_toList, Bytes.ofText, String.toList_ofList] at hbytes

/-- A byte of a gap is a space or a tab. -/
theorem of_mem_bytesOf_gap {cs : List Char} (h : ∀ c ∈ cs, isGap c = true) {byte : UInt8}
    (hbyte : byte ∈ bytesOf cs) : byte = 0x20 ∨ byte = 0x09 := by
  obtain ⟨c, hc, hmem⟩ := List.mem_flatMap.mp hbyte
  have hgap := h c hc
  simp only [isGap, Bool.or_eq_true, beq_iff_eq] at hgap
  rcases hgap with rfl | rfl
  · exact Or.inl (List.mem_singleton.mp hmem)
  · exact Or.inr (List.mem_singleton.mp hmem)

/-- **Bytes outside the spans belong to gaps.** -/
theorem gap_of_outside {lexemes : List Lexeme} {tail : List Char}
    (hstands : ∀ lexeme ∈ lexemes, lexeme.Stands) (htail : ∀ c ∈ tail, isGap c = true)
    {offset index : Nat} {byte : UInt8}
    (hbyte : (bytesOf (written lexemes ++ tail))[index]? = some byte)
    (houtside : ∀ span ∈ spansFrom offset lexemes,
      ¬ (span.1 ≤ offset + index ∧ offset + index < span.2)) :
    byte = 0x20 ∨ byte = 0x09 := by
  induction lexemes generalizing offset index with
  | nil => exact of_mem_bytesOf_gap htail (List.mem_of_getElem? hbyte)
  | cons lexeme rest ih =>
      obtain ⟨hlexeme, hrest⟩ := List.forall_mem_cons.mp hstands
      obtain ⟨hnot, hlater⟩ := List.forall_mem_cons.mp houtside
      rw [written_cons, List.append_assoc, List.append_assoc, bytesOf_append,
        bytesOf_append] at hbyte
      by_cases hgap : index < byteLength lexeme.gap
      · rw [List.getElem?_append_left (by rwa [length_bytesOf])] at hbyte
        exact of_mem_bytesOf_gap hlexeme.gap (List.mem_of_getElem? hbyte)
      · have hpassed : byteLength lexeme.gap + byteLength lexeme.text ≤ index := by omega
        rw [List.getElem?_append_right (by rw [length_bytesOf]; omega),
          List.getElem?_append_right (by simp only [length_bytesOf]; omega)] at hbyte
        have hindex : offset + byteLength lexeme.gap + byteLength lexeme.text +
            (index - (bytesOf lexeme.gap).length - (bytesOf lexeme.text).length) =
              offset + index := by
          simp only [length_bytesOf]
          omega
        exact ih hrest hbyte (hindex ▸ hlater)

/-! ## the field -/

/-- **Lexemes partition the field.**  The spans of the tokens and errors of a text, one for each,
are not empty, lie one behind another within the text and leave out spaces and tabs only.  Each span
cuts a piece out of the text, between whole characters, and that piece alone is scanned as the one
token or error it stands for, with a span over all of it. -/
theorem lexemes_partition_field (text : String) :
    let lexemes := scan text.toList
    (spans lexemes).length = lexemes.length ∧
    (∀ span ∈ spans lexemes, span.1 < span.2 ∧ span.2 ≤ text.utf8ByteSize) ∧
    (spans lexemes).Pairwise (fun first second => first.2 ≤ second.1) ∧
    (∀ (index : Nat) (byte : UInt8), (Bytes.ofText text)[index]? = some byte →
      (∀ span ∈ spans lexemes, ¬ (span.1 ≤ index ∧ index < span.2)) →
      byte = 0x20 ∨ byte = 0x09) ∧
    ∀ span lexeme, (span, lexeme) ∈ (spans lexemes).zip lexemes →
      ∃ before piece after : String, text = before ++ piece ++ after ∧
        before.utf8ByteSize = span.1 ∧ (before ++ piece).utf8ByteSize = span.2 ∧
        (scan piece.toList).map Lexeme.reading = [lexeme.reading] ∧
        spans (scan piece.toList) = [(0, piece.utf8ByteSize)] := by
  intro lexemes
  obtain ⟨hstands, tail, htail, hpieces⟩ := scanFrom_pieces 0 [] text.toList (by simp)
  have htext : text.toList = written lexemes ++ tail := hpieces
  have hplace : ∀ span lexeme, (span, lexeme) ∈ (spans lexemes).zip lexemes →
      ∃ before after, text.toList = before ++ lexeme.text ++ after ∧
        span = (byteLength before, byteLength (before ++ lexeme.text)) := by
    intro span lexeme hmem
    obtain ⟨before, after, hwritten, hspan⟩ := exists_of_mem_zip_spansFrom hmem
    exact ⟨before, after ++ tail, by simp [htext, hwritten], by simpa using hspan⟩
  refine ⟨length_spansFrom 0 lexemes, ?_, pairwise_spansFrom 0 lexemes, ?_, ?_⟩
  · intro span hspan
    have hlength : (spans lexemes).length ≤ lexemes.length :=
      Nat.le_of_eq (length_spansFrom 0 lexemes)
    rw [← List.map_fst_zip hlength] at hspan
    obtain ⟨⟨_, lexeme⟩, hmem, rfl⟩ := List.mem_map.mp hspan
    obtain ⟨before, after, hsplit, rfl⟩ := hplace _ lexeme hmem
    have hpos := (hstands lexeme (List.of_mem_zip hmem).2).byteLength_pos
    rw [← byteLength_toList, hsplit]
    simp only [byteLength_append]
    omega
  · intro index byte hbyte houtside
    rw [Bytes.ofText, htext] at hbyte
    have hnone : ∀ span ∈ spansFrom 0 lexemes,
        ¬ (span.1 ≤ 0 + index ∧ 0 + index < span.2) := by
      simpa only [spans, Nat.zero_add] using houtside
    exact gap_of_outside hstands htail hbyte hnone
  · intro span lexeme hmem
    obtain ⟨before, after, hsplit, rfl⟩ := hplace span lexeme hmem
    have hscan := scan_text (hstands lexeme (List.of_mem_zip hmem).2)
    refine ⟨String.ofList before, String.ofList lexeme.text, String.ofList after,
      ?_, ?_, ?_, ?_, ?_⟩
    · rw [← String.ofList_append, ← String.ofList_append, ← hsplit, String.ofList_toList]
    · rw [← byteLength_toList, String.toList_ofList]
    · rw [← String.ofList_append, ← byteLength_toList, String.toList_ofList]
    · rw [String.toList_ofList, hscan]
      rfl
    · rw [← byteLength_toList, String.toList_ofList, hscan]
      simp [spans, spansFrom, byteLength]

/-- Characters of two bytes, a gap, an equals sign before a letter, and a constant with no end. -/
example : spans (scan "C'é'\t\u0663é =A X'".toList) =
    [(0, 5), (6, 10), (11, 12), (12, 13), (14, 16)] := by
  decide

end Lexeme

end SicXe
