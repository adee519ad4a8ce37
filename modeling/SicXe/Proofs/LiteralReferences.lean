import Mathlib.Data.List.DropRight
import SicXe.Proofs.AddressTables
import SicXe.Proofs.KeptStatements
import SicXe.Proofs.LiteralText

/-!
# SicXe.Proofs.LiteralReferences

Which literals the statements of a section refer to, and which of them wait for a pool.

A statement refers to the first literal among its operands.  A literal goes by its text, and no two
have the same (`text_injective`).  Those that are referred to for the first time since the last
pool wait for the next one (`Statement.waiting`), which takes its own as well (`Statement.pool`).
So a literal is in the first pool from its first reference on (`pool_of_firstRefers`) or, without
such a pool, still waits at the end (`mem_waiting_iff`).

The room that a literal gets is read off its text, so it is the room it needs unless the text does
not read back (`literalSize_text`), and the literals of a pool have all the room they need exactly
if the texts of all of them do (`sizes_filter_eq_iff`).
-/

namespace SicXe

/-! ## the texts of literals -/

namespace Text

/-- A hexadecimal numeral tells its number. -/
theorem hexDigits_injective : Function.Injective hexDigits := by
  intro first second h
  have hfirst : readNumeral 16 (max first second + 1) (hexDigits first) = .ok first :=
    readNumeral_hexDigits (Nat.lt_succ_of_le (Nat.le_max_left ..))
  have hsecond : readNumeral 16 (max first second + 1) (hexDigits second) = .ok second :=
    readNumeral_hexDigits (Nat.lt_succ_of_le (Nat.le_max_right ..))
  rw [h, hsecond] at hfirst
  exact (Except.ok.inj hfirst).symm

theorem quote_notMem_hexDigits (n : Nat) : '\'' ∉ hexDigits n := by
  have hdigit : ∀ d < 16, '\'' ≠ hexDigit d := by decide
  intro hmem
  obtain ⟨d, hd, hquote⟩ := exists_hexDigit_of_mem hmem
  exact hdigit d hd hquote

end Text

/-- The text of a constant tells the constant. -/
theorem Constant.text_injective : Function.Injective Constant.text := by
  intro first second h
  have hlist := congrArg String.toList h
  cases first with
  | chars body =>
      cases second with
      | chars other =>
          have hbody : body.toList = other.toList := by simpa [text] using hlist
          rw [String.toList_inj.mp hbody]
      | hex bytes => simp [text] at hlist
  | hex bytes =>
      cases second with
      | chars other => simp [text] at hlist
      | hex others =>
          have hbytes : bytes.flatMap Bytes.hexPair = others.flatMap Bytes.hexPair := by
            simpa [text, Bytes.toHex] using hlist
          have hread := Bytes.ofHexDigits?_flatMap_hexPair bytes
          rw [hbytes, Bytes.ofHexDigits?_flatMap_hexPair] at hread
          rw [Option.some.inj hread]

namespace Literal

/-- A constant has a quote, and a word has none. -/
theorem text_bytes_ne_text_word (constant : Constant) (value : Nat) :
    (bytes constant).text ≠ (word value).text := by
  intro h
  have hquote : '\'' ∈ constant.text.toList := by
    cases constant <;> simp [Constant.text]
  have hdigits : constant.text.toList = Text.hexDigits value := by
    simpa [text, Text.hex] using congrArg String.toList h
  exact Text.quote_notMem_hexDigits value (hdigits ▸ hquote)

/-- **Literals are told apart by their texts.** -/
theorem text_injective : Function.Injective text := by
  intro first second h
  cases first with
  | bytes constant =>
      cases second with
      | bytes other =>
          have htext : constant.text = other.text := by simpa [text] using h
          rw [Constant.text_injective htext]
      | word value => exact absurd h (text_bytes_ne_text_word constant value)
  | word value =>
      cases second with
      | bytes constant => exact absurd h.symm (text_bytes_ne_text_word constant value)
      | word other =>
          have hdigits : Text.hexDigits value = Text.hexDigits other := by
            simpa [text, Text.hex] using congrArg String.toList h
          rw [Text.hexDigits_injective hdigits]

/-! ## the room of literals -/

/-- Whether the text of a literal reads back: it is a constant, or a word that starts with a
figure. -/
def ReadsBack : Literal → Prop
  | bytes _ => True
  | word value => Text.leadingHexDigit value ≤ 9

instance : DecidablePred ReadsBack
  | bytes _ => .isTrue trivial
  | word value => inferInstanceAs (Decidable (Text.leadingHexDigit value ≤ 9))

/-- A literal gets its own size in a pool if its text reads back, and no room otherwise. -/
theorem literalSize_text {literal : Literal} (h : literal.Written) :
    Layout.literalSize literal.text = if literal.ReadsBack then literal.size else 0 := by
  cases literal with
  | bytes constant =>
      have hback : (bytes constant).ReadsBack := trivial
      rw [if_pos hback, Layout.literalSize, read_text_bytes h]
  | word value =>
      by_cases hback : (word value).ReadsBack
      · rw [if_pos hback, Layout.literalSize, read_text_word h hback]
      · obtain ⟨error, hread⟩ := read_text_word_of_letter (Nat.lt_of_not_le hback)
        rw [if_neg hback, Layout.literalSize, hread]

/-- A literal that can be written takes at least one byte. -/
theorem size_pos {literal : Literal} (h : literal.Written) : 0 < literal.size := by
  cases literal with
  | bytes constant =>
      cases constant with
      | chars body =>
          have hbody : body ≠ "" := fun hempty => h.1 (by rw [hempty]; rfl)
          have hzero : body.utf8ByteSize ≠ 0 := mt String.utf8ByteSize_eq_zero_iff.mp hbody
          exact Nat.pos_of_ne_zero hzero
      | hex bytes => exact List.length_pos_iff.mpr h
  | word value => exact Nat.zero_lt_succ _

/-- The sizes of literals together. -/
def sizes (literals : List Literal) : Nat :=
  (literals.map size).sum

/-- **The room of literals** is that of those that read back from their texts. -/
theorem sum_literalSize {literals : List Literal} (h : ∀ literal ∈ literals, literal.Written) :
    ((literals.map text).map Layout.literalSize).sum =
      sizes (literals.filter fun literal => literal.ReadsBack) := by
  induction literals with
  | nil => rfl
  | cons first rest ih =>
      obtain ⟨hfirst, hrest⟩ := List.forall_mem_cons.mp h
      rw [List.map_cons, List.map_cons, List.sum_cons, ih hrest, literalSize_text hfirst]
      by_cases hback : first.ReadsBack
      · simp [sizes, hback]
      · simp [sizes, hback]

/-- **Literals have the room they need** exactly if all of them read back; they never have more. -/
theorem sizes_filter_eq_iff {literals : List Literal}
    (h : ∀ literal ∈ literals, literal.Written) :
    sizes (literals.filter fun literal => literal.ReadsBack) ≤ sizes literals ∧
      (sizes (literals.filter fun literal => literal.ReadsBack) = sizes literals ↔
        ∀ literal ∈ literals, literal.ReadsBack) := by
  induction literals with
  | nil => simp
  | cons first rest ih =>
      obtain ⟨hfirst, hrest⟩ := List.forall_mem_cons.mp h
      obtain ⟨hle, hiff⟩ := ih hrest
      have hpos := size_pos hfirst
      rw [List.forall_mem_cons, ← hiff]
      simp only [sizes] at hle ⊢
      by_cases hback : first.ReadsBack
      · simpa [hback] using hle
      · simp only [hback, decide_false, Bool.false_eq_true, not_false_eq_true,
          List.filter_cons_of_neg, List.map_cons, List.sum_cons, false_and, iff_false]
        omega

end Literal

/-! ## references -/

namespace Statement

/-- The literal that a statement refers to: the first one among its operands. -/
def literal? (statement : Statement) : Option Literal :=
  Layout.firstLiteral? statement.operands

/-- The literals that statements refer to, in the order of their first references. -/
def literals (statements : List Statement) : List Literal :=
  firstOccurrences Statement.literal? statements

/-- The statements up to the last one that places literals. -/
def upToPool (statements : List Statement) : List Statement :=
  statements.rdropWhile fun statement => !statement.placesLiterals

/-- The literals that are first referred to since the last statement that places literals. -/
def waiting (statements : List Statement) : List Literal :=
  (literals statements).filter fun literal => literal ∉ literals (upToPool statements)

/-- The literals for a statement to place: those that wait before it, and its own if that is
new. -/
def pool (before : List Statement) (statement : Statement) : List Literal :=
  (literals (before ++ [statement])).filter fun literal => literal ∉ literals (upToPool before)

/-- The first reference to a literal, behind other statements. -/
structure FirstRefers (before : List Statement) (statement : Statement) (literal : Literal) :
    Prop where
  refers : statement.literal? = some literal
  first : literal ∉ literals before

section
variable {before after more : List Statement} {statement flush : Statement} {literal : Literal}

/-- More statements take no literal away. -/
theorem literals_subset_append (before more : List Statement) :
    literals before ⊆ literals (before ++ more) := by
  obtain ⟨added, hadded⟩ := firstOccurrences_append Statement.literal? before more
  rw [literals, literals, hadded]
  exact List.subset_append_left ..

/-- A statement whose literal was referred to before adds none. -/
theorem literals_concat_of_old (h : ∀ literal ∈ statement.literal?, literal ∈ literals before) :
    literals (before ++ [statement]) = literals before := by
  cases hliteral : statement.literal? with
  | none => exact firstOccurrences_concat_of_none hliteral
  | some literal => exact firstOccurrences_concat_of_mem hliteral (h literal hliteral)

/-- A statement that is the first to refer to a literal puts it last. -/
theorem FirstRefers.literals_eq (h : FirstRefers before statement literal) :
    literals (before ++ [statement]) = literals before ++ [literal] :=
  firstOccurrences_concat_of_notMem h.refers h.first

/-- What is placed was referred to. -/
theorem literals_upToPool_subset (before : List Statement) :
    literals (upToPool before) ⊆ literals before := by
  obtain ⟨tail, htail⟩ : upToPool before <+: before := List.rdropWhile_prefix _ _
  conv => rhs; rw [← htail]
  exact literals_subset_append ..

/-! ## pools -/

theorem upToPool_concat_of_places (h : statement.placesLiterals = true) :
    upToPool (before ++ [statement]) = before ++ [statement] :=
  List.rdropWhile_concat_neg _ _ _ (by simp [h])

theorem upToPool_concat_of_not (h : statement.placesLiterals = false) :
    upToPool (before ++ [statement]) = upToPool before :=
  List.rdropWhile_concat_pos _ _ _ (by simp [h])

/-- As long as nothing places literals, the last pool stays the last. -/
theorem upToPool_append_of_not (h : ∀ other ∈ more, other.placesLiterals = false) :
    upToPool (before ++ more) = upToPool before := by
  induction more using List.reverseRecOn with
  | nil => rw [List.append_nil]
  | append_singleton more last ih =>
      obtain ⟨hmore, hlast⟩ := List.forall_mem_append.mp h
      rw [← List.append_assoc, upToPool_concat_of_not (hlast last List.mem_cons_self), ih hmore]

/-- What comes before a pool comes before the last pool. -/
theorem prefix_upToPool (before after : List Statement) (h : flush.placesLiterals = true) :
    before ++ [flush] <+: upToPool (before ++ flush :: after) := by
  induction after using List.reverseRecOn with
  | nil => simp [upToPool_concat_of_places h]
  | append_singleton after last ih =>
      rw [← List.cons_append, ← List.append_assoc]
      cases hlast : last.placesLiterals with
      | true =>
          rw [upToPool_concat_of_places hlast]
          exact ⟨after ++ [last], by simp⟩
      | false => rwa [upToPool_concat_of_not hlast]

/-- Nothing waits behind a pool. -/
theorem waiting_concat_of_places (h : statement.placesLiterals = true) :
    waiting (before ++ [statement]) = [] := by
  rw [waiting, upToPool_concat_of_places h, List.filter_eq_nil_iff]
  intro literal hmem
  simpa using hmem

/-- Behind any other statement its literal waits, too. -/
theorem waiting_concat_of_not (h : statement.placesLiterals = false) :
    waiting (before ++ [statement]) = pool before statement := by
  rw [waiting, upToPool_concat_of_not h, pool]

/-- A reference that is not the first one adds nothing to the pool. -/
theorem pool_of_old (h : ∀ literal ∈ statement.literal?, literal ∈ literals before) :
    pool before statement = waiting before := by
  rw [pool, literals_concat_of_old h, waiting]

/-- A literal that is new is in no pool yet. -/
theorem FirstRefers.notMem_upToPool (h : FirstRefers before statement literal) :
    literal ∉ literals (upToPool before) :=
  fun hmem => h.first (literals_upToPool_subset before hmem)

/-- The first reference to a literal puts it behind those that wait. -/
theorem FirstRefers.pool_eq (h : FirstRefers before statement literal) :
    pool before statement = waiting before ++ [literal] := by
  rw [pool, h.literals_eq, List.filter_append]
  simp [waiting, h.notMem_upToPool]

/-- **A literal goes to the first pool** from its first reference on, behind those that wait
before it. -/
theorem pool_of_firstRefers {skipped rest : List Statement}
    (h : FirstRefers before statement literal)
    (hsplit : statement :: rest = skipped ++ flush :: after)
    (hskipped : ∀ other ∈ skipped, other.placesLiterals = false) :
    ∃ back, pool (before ++ skipped) flush = waiting before ++ literal :: back := by
  obtain ⟨more, hmore⟩ : ∃ more, skipped ++ [flush] = statement :: more := by
    cases skipped with
    | nil => exact ⟨[], by rw [(List.cons_eq_cons.mp hsplit).1]; rfl⟩
    | cons first skipped => exact ⟨skipped ++ [flush], by rw [(List.cons_eq_cons.mp hsplit).1]; rfl⟩
  obtain ⟨back, hback⟩ := firstOccurrences_append Statement.literal? (before ++ [statement]) more
  rw [List.append_assoc, List.singleton_append,
    firstOccurrences_concat_of_notMem h.refers h.first, List.append_assoc,
    List.singleton_append] at hback
  have hall : literals (before ++ skipped ++ [flush]) = literals before ++ literal :: back := by
    rw [List.append_assoc, hmore]
    exact hback
  rw [pool, hall, upToPool_append_of_not hskipped, List.filter_append,
    List.filter_cons_of_pos (by simpa using h.notMem_upToPool)]
  exact ⟨_, rfl⟩

/-- **A literal waits at the end** exactly if no statement from its first reference on places
literals. -/
theorem FirstRefers.mem_waiting_iff (h : FirstRefers before statement literal) :
    literal ∈ waiting (before ++ statement :: after) ↔
      ∀ other ∈ statement :: after, other.placesLiterals = false := by
  have hmem : literal ∈ literals (before ++ statement :: after) :=
    mem_firstOccurrences.mpr ⟨statement, by simp, h.refers⟩
  constructor
  · intro hwaits other hother
    by_contra hplaces
    replace hplaces : other.placesLiterals = true := by simpa using hplaces
    obtain ⟨front, back, hsplit⟩ := List.append_of_mem hother
    -- The first reference comes before the last pool then.
    have hprefix : before ++ front ++ [other] <+: upToPool (before ++ statement :: after) := by
      rw [hsplit, ← List.append_assoc]
      exact prefix_upToPool _ _ hplaces
    obtain ⟨tail, htail⟩ := hprefix
    have hearly : literal ∈ literals (before ++ front ++ [other]) := by
      refine mem_firstOccurrences.mpr ⟨statement, ?_, h.refers⟩
      cases front with
      | nil => simp [(List.cons_eq_cons.mp hsplit).1]
      | cons first front => simp [(List.cons_eq_cons.mp hsplit).1]
    have hlate := literals_subset_append _ tail hearly
    rw [htail] at hlate
    simp [waiting, hlate] at hwaits
  · intro hnone
    rw [waiting, upToPool_append_of_not hnone, List.mem_filter]
    exact ⟨hmem, by simpa using h.notMem_upToPool⟩

end

/-! ## object code -/

/- Which literals wait does not depend on object code. -/

theorem literals_map_withoutCode (statements : List Statement) :
    literals (statements.map withoutCode) = literals statements := by
  rw [literals, literals, firstOccurrences, List.filterMap_map]
  rfl

theorem upToPool_map_withoutCode (statements : List Statement) :
    upToPool (statements.map withoutCode) = (upToPool statements).map withoutCode := by
  induction statements using List.reverseRecOn with
  | nil => rfl
  | append_singleton statements last ih =>
      rw [List.map_append, List.map_singleton]
      cases hlast : last.placesLiterals with
      | true =>
          rw [upToPool_concat_of_places hlast, upToPool_concat_of_places
            (show last.withoutCode.placesLiterals = true from hlast), List.map_append,
            List.map_singleton]
      | false =>
          rw [upToPool_concat_of_not hlast, upToPool_concat_of_not
            (show last.withoutCode.placesLiterals = false from hlast), ih]

theorem waiting_map_withoutCode (statements : List Statement) :
    waiting (statements.map withoutCode) = waiting statements := by
  simp only [waiting, upToPool_map_withoutCode, literals_map_withoutCode]

/-- Pools do not depend on object code. -/
theorem pool_map_withoutCode (before : List Statement) (statement : Statement) :
    pool (before.map withoutCode) statement.withoutCode = pool before statement := by
  rw [pool, pool, upToPool_map_withoutCode, literals_map_withoutCode, ← List.map_singleton,
    ← List.map_append, literals_map_withoutCode]

end Statement

end SicXe
