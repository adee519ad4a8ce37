import Mathlib.Algebra.Order.BigOperators.Group.List
import Mathlib.Algebra.Order.Group.Nat
import SicXe.Proofs.LiteralPlacement
import SicXe.Proofs.SharedNames

/-!
# SicXe.Proofs.SourceBytes

How much of a source text its parts take.

Lines are cut from the source, fields from a line and constants from a field, and each part has no
more bytes than what it is cut from.  A constant takes no more room than its characters do, and a
word literal, which may be written with two characters, still has the tabs of its line on its side.
So no operand takes more room than the line it stands on (`room_le_of_draft`), and as a line adds
one literal at most, the literals of a section take no more bytes than its lines have
(`literalBytes_addLines_le`).
-/

namespace SicXe

namespace Lexeme

@[simp] theorem byteLength_cons (c : Char) (cs : List Char) :
    byteLength (c :: cs) = c.utf8Size + byteLength cs := rfl

/-- Leaving characters out makes no text longer. -/
theorem byteLength_le_of_sublist {xs ys : List Char} (h : xs.Sublist ys) :
    byteLength xs ≤ byteLength ys := by
  induction h with
  | slnil => exact Nat.le_refl _
  | cons c _ ih =>
      rw [byteLength_cons]
      omega
  | cons_cons c _ ih =>
      rw [byteLength_cons, byteLength_cons]
      omega

/-- Every character takes a byte or more. -/
theorem length_le_byteLength (cs : List Char) : cs.length ≤ byteLength cs := by
  induction cs with
  | nil => exact Nat.le_refl _
  | cons c rest ih =>
      have hpos := c.utf8Size_pos
      rw [List.length_cons, byteLength_cons]
      omega

/-- The bytes of a text are those of its characters. -/
theorem byteLength_toList (text : String) : byteLength text.toList = text.utf8ByteSize := by
  have hchars : ∀ cs, byteLength cs = (String.ofList cs).utf8ByteSize := by
    intro cs
    induction cs with
    | nil => simp [byteLength]
    | cons c rest ih =>
        have hsplit : String.ofList (c :: rest) = String.singleton c ++ String.ofList rest := by
          rw [String.singleton_eq_ofList, ← String.ofList_append]
          rfl
        rw [byteLength_cons, ih, hsplit, String.utf8ByteSize_append,
          String.utf8ByteSize_singleton]
  rw [hchars, String.ofList_toList]

end Lexeme

open Lexeme (byteLength)

/-! ## lines and fields -/

namespace Text

/-- How many bytes the parts of a text take together. -/
def byteLengths (parts : List (List Char)) : Nat :=
  (parts.map byteLength).sum

@[simp] theorem byteLengths_cons (part : List Char) (parts : List (List Char)) :
    byteLengths (part :: parts) = byteLength part + byteLengths parts := by
  simp [byteLengths]

/-- The pieces of a text and the separators, of which there is one less, take the bytes of the
text. -/
theorem byteLengths_pieces (separator : Char) (cs : List Char) :
    byteLengths (pieces separator cs) + separator.utf8Size * (pieces separator cs).length =
      byteLength cs + separator.utf8Size := by
  induction cs with
  | nil => simp [pieces, byteLengths, byteLength]
  | cons c rest ih =>
      rw [pieces_cons]
      split
      · next hseparator =>
          rw [byteLengths_cons, List.length_cons, Nat.mul_succ, Lexeme.byteLength_cons, hseparator]
          simp only [byteLength]
          omega
      · cases hpieces : pieces separator rest with
        | nil => exact absurd hpieces (pieces_ne_nil separator rest)
        | cons piece more =>
            rw [hpieces] at ih
            simp only [byteLengths_cons, Lexeme.byteLength_cons, List.length_cons] at ih ⊢
            omega

/-- Lines have no more bytes than the pieces they are made of. -/
theorem byteLengths_linesOfPieces_le (pieces : List (List Char)) :
    byteLengths (linesOfPieces pieces) ≤ byteLengths pieces := by
  fun_induction linesOfPieces pieces with
  | case1 => exact Nat.le_refl _
  | case2 => simp [byteLengths]
  | case3 => exact Nat.le_refl _
  | case4 piece more hmore ih =>
      have hpiece : byteLength (dropReturn piece) ≤ byteLength piece := by
        unfold dropReturn
        split
        · exact Lexeme.byteLength_le_of_sublist (List.dropLast_sublist piece)
        · exact Nat.le_refl _
      rw [byteLengths_cons, byteLengths_cons]
      omega

end Text

/-- How many bytes lines take together. -/
def lineBytes (lines : List (Nat × String)) : Nat :=
  (lines.map fun line => line.2.utf8ByteSize).sum

theorem lineBytes_append (first second : List (Nat × String)) :
    lineBytes (first ++ second) = lineBytes first + lineBytes second := by
  rw [lineBytes, List.map_append, List.sum_append]
  rfl

theorem lineBytes_cons (line : Nat × String) (lines : List (Nat × String)) :
    lineBytes (line :: lines) = line.2.utf8ByteSize + lineBytes lines :=
  List.sum_cons

/-- The lines of a source have no more bytes than the source. -/
theorem lineBytes_numberedLines_le (source : String) :
    lineBytes (Program.numberedLines source) ≤ source.utf8ByteSize := by
  have hpieces := Text.byteLengths_pieces '\n' source.toList
  have hlines := Text.byteLengths_linesOfPieces_le (Text.pieces '\n' source.toList)
  have hcount := List.length_pos_iff.mpr (Text.pieces_ne_nil '\n' source.toList)
  have hsame : lineBytes (Program.numberedLines source) =
      Text.byteLengths (Text.linesOfPieces (Text.pieces '\n' source.toList)) := by
    rw [lineBytes, Program.numberedLines, List.map_map]
    show (((Text.lines source).zipIdx 1).map (String.utf8ByteSize ∘ Prod.fst)).sum = _
    rw [← List.map_map, List.zipIdx_map_fst, Text.lines, List.map_map, Text.byteLengths]
    congr 2
    funext cs
    rw [Function.comp_apply, ← Lexeme.byteLength_toList, String.toList_ofList]
  rw [← Lexeme.byteLength_toList, hsame]
  simp only [show Char.utf8Size '\n' = 1 from rfl, Nat.one_mul] at hpieces
  omega

/-- The lines of a section take no more bytes than the source. -/
theorem lineBytes_section_le {source : String} {lines : List (Nat × String)}
    (h : lines ∈ (Program.cutSections (Program.numberedLines source)).2) :
    lineBytes lines ≤ source.utf8ByteSize := by
  have hsub : lines.Sublist (Program.numberedLines source) := by
    rw [← Program.cutSections_flatten (Program.numberedLines source)]
    exact (List.sublist_flatten_of_mem h).trans (List.sublist_append_right _ _)
  have hsum : lineBytes lines ≤ lineBytes (Program.numberedLines source) :=
    (hsub.map _).sum_le_sum fun _ _ => Nat.zero_le _
  exact Nat.le_trans hsum (lineBytes_numberedLines_le source)

/-- An operand field leaves two bytes of its line to the tabs in front of it. -/
theorem LineFields.utf8ByteSize_operands {line : String} {fields : LineFields} {field : String}
    (hread : read line = .ok (some fields)) (hfield : fields.operands = some field) :
    field.utf8ByteSize + 2 ≤ line.utf8ByteSize := by
  unfold read at hread
  split at hread
  · cases hread
  · dsimp only at hread
    split at hread
    · cases hread
    · split at hread
      · cases hread
      · rw [Except.ok.injEq, Option.some.injEq] at hread
        rw [← hread] at hfield
        have htrim := eq_trim_of_field? hfield
        have hsub := Lexeme.byteLength_le_of_sublist (Text.trim_sublist (cut line.toList).2.2.1)
        rw [← htrim, Lexeme.byteLength_toList] at hsub
        have hne : (cut line.toList).2.2.1 ≠ [] := by
          intro hnil
          rw [hnil] at hfield
          cases hfield
        have hpieces := Text.byteLengths_pieces '\t' line.toList
        rw [Lexeme.byteLength_toList, show Char.utf8Size '\t' = 1 from rfl, Nat.one_mul] at hpieces
        -- Only a line with two tabs has an operand field.
        revert hsub hne
        unfold cut
        split
        · exact fun _ hne => absurd rfl hne
        · exact fun _ hne => absurd rfl hne
        · exact fun _ hne => absurd rfl hne
        · next label operator operands comment hcut =>
            rw [hcut] at hpieces
            simp only [Text.byteLengths_cons, List.length_cons] at hpieces
            intro hsub _
            dsimp only at hsub
            omega

/-! ## constants and literals -/

/-- How much room a token asks for, or a word. -/
def Token.room : Token → Nat
  | constant value => value.size
  | _ => 3

/-- How much room an operand asks for. -/
def Operand.room : Operand → Nat
  | literal value => value.size
  | constant value => value.size
  | _ => 0

namespace Lexeme

/-- Hexadecimal digits give no more bytes than there are digits. -/
theorem length_of_ofHexDigits? {digits : List Char} {bytes : List UInt8}
    (h : Bytes.ofHexDigits? digits = some bytes) : bytes.length ≤ digits.length := by
  fun_induction Bytes.ofHexDigits? digits generalizing bytes with
  | case1 =>
      cases h
      exact Nat.le_refl _
  | case2 => cases h
  | case3 high low rest ih =>
      obtain ⟨_, -, h⟩ := Option.bind_eq_some_iff.mp h
      obtain ⟨_, -, h⟩ := Option.bind_eq_some_iff.mp h
      obtain ⟨others, hothers, h⟩ := Option.bind_eq_some_iff.mp h
      cases h
      have hle := ih hothers
      simp only [List.length_cons]
      omega

/-- A constant takes no more bytes than it is written with. -/
theorem size_le_of_readConstant {letter : Char} {body : List Char} {value : Constant}
    (h : readConstant letter body = .ok value) : value.size ≤ byteLength body := by
  unfold readConstant at h
  split at h
  · cases h
  · split at h
    · cases h
      rw [Constant.size, ← byteLength_toList, String.toList_ofList]
    · split at h
      · cases h
      · split at h
        · cases h
        · next bytes hbytes =>
            cases h
            exact Nat.le_trans (length_of_ofHexDigits? hbytes) (length_le_byteLength body)

/-- **Tokens take no more room than they are written with**, but for the two bytes that a word can
have more. -/
theorem room_le_of_take {c : Char} {rest : List Char} {token : Token}
    (h : (take c rest).2 = .ok token) : token.room ≤ byteLength (c :: rest) + 2 := by
  have hword : 3 ≤ byteLength (c :: rest) + 2 := by
    have hpos := c.utf8Size_pos
    rw [byteLength_cons]
    omega
  have htaken := taken_take c rest
  generalize take c rest = taken at htaken h
  cases htaken with
  | number =>
      obtain ⟨value, -, rfl⟩ := exists_of_map_eq_ok h
      exact hword
  | constant body hrest =>
      unfold takeConstant at h
      dsimp only at h
      split at h
      · cases h
      · obtain ⟨value, hread, rfl⟩ := exists_of_map_eq_ok h
        have hsize := size_le_of_readConstant hread
        have hbody := byteLength_le_of_sublist (List.takeWhile_sublist (· != '\'') (l := body))
        rw [Token.room, hrest, byteLength_cons, byteLength_cons]
        omega
  | name =>
      cases h
      exact hword
  | literalWord =>
      obtain ⟨value, -, rfl⟩ := exists_of_map_eq_ok h
      exact hword
  | mark mark hmark =>
      cases h
      unfold mark? at hmark
      split at hmark <;> cases hmark <;> exact hword
  | stray => cases h

end Lexeme

namespace Operand

/-- An operand takes the room of one of its tokens, or none. -/
theorem room_of_ofTokens {tokens : List Token} {text : List Char} {operand : Operand}
    (h : ofTokens tokens text = .ok operand) :
    operand.room = 0 ∨ ∃ token ∈ tokens, operand.room = token.room := by
  cases operand with
  | literal value =>
      unfold ofTokens at h
      split at h <;> cases h
      · exact Or.inr ⟨_, List.mem_cons_of_mem _ List.mem_cons_self, rfl⟩
      · exact Or.inr ⟨_, List.mem_cons_self, rfl⟩
  | constant value =>
      unfold ofTokens at h
      split at h <;> cases h
      exact Or.inr ⟨_, List.mem_cons_self, rfl⟩
  | _ => exact Or.inl rfl

/-- An operand takes at most two bytes more than its field has. -/
theorem room_le_of_mem_readAll {field : String} {operands : List Operand}
    (h : readAll field = .ok operands) :
    ∀ operand ∈ operands, operand.room ≤ field.utf8ByteSize + 2 := by
  intro operand hmem
  obtain ⟨group, written, hgroup, htokens⟩ := exists_tokens_of_mem_readAll h hmem
  rcases room_of_ofTokens hgroup with hnone | ⟨token, htoken, hroom⟩
  · omega
  · obtain ⟨c, rest, hsuffix, htake⟩ := htokens token htoken
    have htaken := Lexeme.room_le_of_take htake
    have hsub := Lexeme.byteLength_le_of_sublist hsuffix.sublist
    rw [Lexeme.byteLength_toList] at hsub
    omega

end Operand

namespace Layout

section
variable {registry : Registry} {layout : Layout} {line : Nat × String} {statement : Statement}
  {length : Nat}

/-- **Operands take no more room than their line has.** -/
theorem room_le_of_draft (h : draft registry line.1 line.2 = .ok (some statement)) :
    ∀ operand ∈ statement.operands, operand.room ≤ line.2.utf8ByteSize := by
  intro operand hmem
  obtain ⟨fields, field, hread, hfield, hall⟩ :=
    exists_readAll_of_draft h (List.ne_nil_of_mem hmem)
  have hroom := Operand.room_le_of_mem_readAll hall operand hmem
  have hline := LineFields.utf8ByteSize_operands hread hfield
  omega

/-- The length of a draft is bounded by what it can reserve and by its line. -/
theorem lengthOf_le_of_draft (h : draft registry line.1 line.2 = .ok (some statement))
    (hlength : lengthOf registry statement = .ok length) :
    length ≤ 3 * wordSize + line.2.utf8ByteSize := by
  have hsmall : 4 ≤ wordSize := by decide
  have hnumber : ∀ count : Nat, statement.operands = [.number (.ofNat count)] →
      count < wordSize := by
    intro count hoperands
    show (Int.ofNat count).natAbs < wordSize
    exact natAbs_lt_of_draft h (by rw [hoperands]; exact List.mem_singleton_self _)
  unfold lengthOf at hlength
  dsimp only at hlength
  split at hlength
  · next mnemonic extended _ =>
      rw [Except.ok.injEq] at hlength
      have hformat : ((registry.get? mnemonic).map (·.format.size)).getD 0 ≤ 3 := by
        cases registry.get? mnemonic with
        | none => exact Nat.zero_le _
        | some found =>
            rw [Option.map_some, Option.getD_some]
            cases found.format <;> decide
      have hextended := Bool.toNat_le extended
      omega
  · split at hlength
    · next count hoperands =>
        have hcount := hnumber count hoperands
        rw [Except.ok.injEq] at hlength
        omega
    · cases hlength
  · split at hlength
    · next count hoperands =>
        have hcount := hnumber count hoperands
        rw [Except.ok.injEq] at hlength
        omega
    · cases hlength
  · split at hlength
    · cases hlength
      omega
    · cases hlength
      omega
    · cases hlength
      omega
    · cases hlength
  · split at hlength
    · next value hoperands =>
        cases hlength
        have hroom := room_le_of_draft h (.constant value) (by simp [hoperands])
        rw [Operand.room] at hroom
        omega
    · cases hlength
  · cases hlength
    omega
  · cases hlength
    omega

/-! ## the literals of a section -/

/-- A literal takes no more bytes in its pool than its line has. -/
theorem literalSize_le_of_draft (h : draft registry line.1 line.2 = .ok (some statement))
    {value : Literal} (hfirst : firstLiteral? statement.operands = some value) :
    literalSize value.text ≤ line.2.utf8ByteSize := by
  have hmem := mem_operands_of_firstLiteral? hfirst
  have hroom := room_le_of_draft h _ hmem
  rw [Operand.room] at hroom
  rw [Literal.literalSize_text (written_of_draft h hmem)]
  split
  · exact hroom
  · exact Nat.zero_le _

/-- A line adds no more to the literals than it has bytes. -/
theorem literalBytes_defined_le (h : HasPlace registry layout line statement length) :
    literalBytes ((layout.openSection statement).defined
        (layout.placed statement length)).literals.entries ≤
      literalBytes layout.literals.entries + line.2.utf8ByteSize := by
  rcases literals_defined (layout.openSection statement) (layout.placed statement length) with
    hsame | ⟨value, hfirst, -, hnew⟩
  · rw [hsame, literals_openSection]
    exact Nat.le_add_right ..
  · rw [hnew, literals_openSection, literalBytes, List.flatMap_append, List.length_append]
    have hsize := literalSize_le_of_draft h.drafted hfirst
    rw [← length_literalContents] at hsize
    simpa [literalBytes] using hsize

/-- **One line** adds no more bytes to the literals than it has. -/
theorem literalBytes_addLine_le (registry : Registry) (layout : Layout) (line : Nat × String) :
    literalBytes (layout.addLine registry line).1.literals.entries ≤
      literalBytes layout.literals.entries + line.2.utf8ByteSize := by
  rcases tables_addLine registry layout line with
    ⟨-, -, hliterals⟩ | ⟨statement, length, hplace, -, hliterals⟩
  · rw [hliterals]
    exact Nat.le_add_right ..
  · rw [hliterals, literals_obeyed]
    split
    · rw [AddressTable.placePending, literalBytes_placeFrom]
      exact literalBytes_defined_le hplace
    · exact literalBytes_defined_le hplace

end

/-- **Literals are paid for by the lines they stand on.** -/
theorem literalBytes_addLines_le (registry : Registry) (lines : List (Nat × String)) :
    literalBytes (addLines registry {} lines).1.literals.entries ≤ lineBytes lines := by
  induction lines using List.reverseRecOn with
  | nil => exact Nat.le_refl _
  | append_singleton lines line ih =>
      rw [addLines_append, addLines, addLines, lineBytes_append, lineBytes_cons]
      have hline := literalBytes_addLine_le registry (addLines registry {} lines).1 line
      dsimp only
      omega

end Layout

end SicXe
