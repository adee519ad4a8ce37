import Mathlib.Data.Finset.Card
import Mathlib.Data.List.Induction
import Mathlib.Data.List.Nodup
import SicXe.Proofs.PlainNames
import SicXe.Proofs.ProgramSections

/-!
# SicXe.Proofs.RegistryLines

What a registry has from the lines it is read from.

Reading goes through the lines once: a blank line is passed over, a description is added in place of
the one that has its mnemonic, and the first line that is neither ends it.  Lines that pass can be
taken off the front of any text (`readFrom_append`), so reading comes to adding all the described
instructions one after another (`read_eq_ok_iff`) or to the first rejected line
(`read_eq_error_iff`).  Adding them is a lookup with the latest in front (`get?_insertAll`), and
that law settles the rest: the last line of a mnemonic counts, and lines of different mnemonics may
stand in any order (`lines_tell_the_registry`).
-/

namespace SicXe

/-! ## blank lines -/

theorem Text.trim_of_allBlank {cs : List Char} (h : allBlank cs = true) : trim cs = [] := by
  have hdrop : cs.dropWhile isBlank = [] := List.dropWhile_eq_nil_iff.mpr (List.all_eq_true.mp h)
  rw [trim, hdrop]
  rfl

/-- A blank line describes nothing. -/
theorem Instruction.read_of_allBlank {line : String} (h : Text.allBlank line.toList = true) :
    read line = .error (.missing "mnemonic") := by
  have hfields : fields line.toList = [] := by
    refine List.filter_eq_nil_iff.mpr fun field hfield => ?_
    obtain ⟨piece, hpiece, rfl⟩ := List.mem_map.mp hfield
    have hblank : Text.allBlank piece = true := List.all_eq_true.mpr fun c hc =>
      List.all_eq_true.mp h c (Text.mem_of_mem_pieces hpiece c hc).1
    simp [Text.trim_of_allBlank hblank]
  rw [read, hfields]

namespace Registry

/-! ## the lines of a registry -/

/-- A line that reading gets past: if it is not blank, it describes an instruction. -/
def Passes (line : String) : Prop :=
  Text.allBlank line.toList = false → ∃ found, Instruction.read line = .ok found

/-- The first line that is rejected, by its number among all the lines and the reason. -/
def FirstRejected (lines : List String) (error : RegistryError) : Prop :=
  ∃ before line after, lines = before ++ line :: after ∧ (∀ other ∈ before, Passes other) ∧
    Text.allBlank line.toList = false ∧ Instruction.read line = .error error.reason ∧
    error.line = before.length + 1

/-- The instructions that lines describe, in the order of the lines. -/
def described (lines : List String) : List Instruction :=
  lines.filterMap fun line => (Instruction.read line).toOption

/-- The last line of a mnemonic describes an instruction. -/
def LastDescribed (lines : List String) (mnemonic : String) (found : Instruction) : Prop :=
  ∃ before line after, lines = before ++ line :: after ∧ Instruction.read line = .ok found ∧
    found.mnemonic = mnemonic ∧ ∀ other ∈ described after, other.mnemonic ≠ mnemonic

@[simp] theorem described_nil : described [] = [] := rfl

@[simp] theorem described_append (first second : List String) :
    described (first ++ second) = described first ++ described second :=
  List.filterMap_append

section
variable {line : String} {lines : List String}

/-- A line that can be read adds its instruction. -/
theorem described_cons_of_ok {found : Instruction} (h : Instruction.read line = .ok found) :
    described (line :: lines) = found :: described lines :=
  List.filterMap_cons_some (by rw [h]; rfl)

/-- A line that cannot be read adds nothing. -/
theorem described_cons_of_error {error : DescriptionError}
    (h : Instruction.read line = .error error) : described (line :: lines) = described lines :=
  List.filterMap_cons_none (by rw [h]; rfl)

/-- A line that does not pass is not blank, and there is a reason why it cannot be read. -/
theorem exists_error_of_not_passes (h : ¬ Passes line) :
    Text.allBlank line.toList = false ∧ ∃ reason, Instruction.read line = .error reason := by
  obtain ⟨hblank, hnone⟩ := Classical.not_imp.mp h
  refine ⟨hblank, ?_⟩
  cases hread : Instruction.read line with
  | error reason => exact ⟨reason, rfl⟩
  | ok found => exact absurd ⟨found, hread⟩ hnone

/-- Either all lines pass, or there is a first one that is rejected. -/
theorem passes_or_firstRejected (lines : List String) :
    (∀ line ∈ lines, Passes line) ∨ ∃ error, FirstRejected lines error := by
  induction lines with
  | nil => exact .inl (by simp)
  | cons line rest ih =>
      by_cases hline : Passes line
      · rcases ih with hrest | ⟨error, before, bad, after, rfl, hbefore, hbad⟩
        · exact .inl (List.forall_mem_cons.mpr ⟨hline, hrest⟩)
        · -- One more line stands before the rejected one.
          refine .inr ⟨⟨error.line + 1, error.reason⟩, line :: before, bad, after, rfl,
            List.forall_mem_cons.mpr ⟨hline, hbefore⟩, hbad.1, hbad.2.1, ?_⟩
          simp [hbad.2.2]
      · obtain ⟨hblank, reason, hread⟩ := exists_error_of_not_passes hline
        exact .inr ⟨⟨1, reason⟩, [], line, rest, rfl, by simp, hblank, hread, rfl⟩

end

/-! ## adding instructions -/

/-- Add instructions one after another. -/
def insertAll (registry : Registry) (instructions : List Instruction) : Registry :=
  instructions.foldl insert registry

/-- Each mnemonic has one instruction. -/
def Distinct (registry : Registry) : Prop :=
  (registry.instructions.map (·.mnemonic)).Nodup

section
variable {registry : Registry} {mnemonic : String}

/-- **An added instruction is found under its mnemonic**, and the others are as they were. -/
theorem get?_insert (registry : Registry) (instruction : Instruction) (mnemonic : String) :
    (registry.insert instruction).get? mnemonic =
      if instruction.mnemonic = mnemonic then some instruction else registry.get? mnemonic := by
  by_cases h : instruction.mnemonic = mnemonic
  · simp [get?, insert, h]
  · -- No instruction of the mnemonic looked for is taken out.
    have hsame : (fun other : Instruction =>
        decide ((other.mnemonic != instruction.mnemonic) = true ∧
          (other.mnemonic == mnemonic) = true)) = fun other => other.mnemonic == mnemonic := by
      funext other
      by_cases hother : other.mnemonic = mnemonic
      · simp [hother, Ne.symm h]
      · simp [hother]
    rw [get?, insert, List.find?_cons_of_neg (by simpa using h), List.find?_filter, hsame,
      if_neg h, get?]

/-- A description takes the place of the one before it, so mnemonics stay different. -/
theorem Distinct.insert (h : registry.Distinct) (instruction : Instruction) :
    (registry.insert instruction).Distinct := by
  refine List.nodup_cons.mpr ⟨?_, h.sublist (List.filter_sublist.map _)⟩
  simp

/-- So they do over all descriptions of a text. -/
theorem Distinct.insertAll (h : registry.Distinct) (instructions : List Instruction) :
    (registry.insertAll instructions).Distinct := by
  induction instructions generalizing registry with
  | nil => exact h
  | cons instruction rest ih => exact ih (h.insert instruction)

/-- **The latest of a mnemonic counts**: added instructions are looked up from the last to the
first, and before the ones that were there. -/
theorem get?_insertAll (registry : Registry) (instructions : List Instruction) (mnemonic : String) :
    (registry.insertAll instructions).get? mnemonic =
      (get? ⟨instructions.reverse⟩ mnemonic).or (registry.get? mnemonic) := by
  induction instructions using List.reverseRecOn with
  | nil => rfl
  | append_singleton earlier last ih =>
      rw [insertAll, List.foldl_concat, get?_insert, ← insertAll, ih]
      by_cases h : last.mnemonic = mnemonic <;> simp [get?, h]

/-- Where mnemonics are different, every instruction of the registry is found under its own. -/
theorem get?_eq_some_iff_mem (h : registry.Distinct) {found : Instruction} :
    registry.get? mnemonic = some found ↔
      found ∈ registry.instructions ∧ found.mnemonic = mnemonic := by
  constructor
  · intro hget
    exact ⟨List.mem_of_find?_eq_some hget, by simpa using List.find?_some hget⟩
  · rintro ⟨hmem, rfl⟩
    cases hget : registry.get? found.mnemonic with
    | none => simpa using List.find?_eq_none.mp hget found hmem
    | some other =>
        have hother : other.mnemonic = found.mnemonic := by simpa using List.find?_some hget
        rw [List.inj_on_of_nodup_map h (List.mem_of_find?_eq_some hget) hmem hother]

theorem get?_eq_none_iff :
    registry.get? mnemonic = none ↔ mnemonic ∉ registry.instructions.map (·.mnemonic) := by
  simp [get?]

end

/-! ## what reading comes to -/

theorem insertAll_append (registry : Registry) (first second : List Instruction) :
    registry.insertAll (first ++ second) = (registry.insertAll first).insertAll second :=
  List.foldl_append

/-- A line that passes adds what it describes, if anything, and counts in any case. -/
theorem readFrom_cons_of_passes {line : String} (h : Passes line) (registry : Registry)
    (number : Nat) (rest : List String) :
    readFrom registry number (line :: rest) =
      readFrom (registry.insertAll (described [line])) (number + 1) rest := by
  cases hblank : Text.allBlank line.toList with
  | true =>
      rw [described_cons_of_error (Instruction.read_of_allBlank hblank), readFrom, if_pos hblank]
      rfl
  | false =>
      obtain ⟨found, hread⟩ := h hblank
      rw [described_cons_of_ok hread, readFrom, hblank, hread]
      rfl

/-- **Lines that pass come off the front**: their instructions are added, and they count. -/
theorem readFrom_append {before : List String} (h : ∀ line ∈ before, Passes line)
    (registry : Registry) (number : Nat) (rest : List String) :
    readFrom registry number (before ++ rest) =
      readFrom (registry.insertAll (described before)) (number + before.length) rest := by
  induction before generalizing registry number with
  | nil => rfl
  | cons line before ih =>
      obtain ⟨hline, hbefore⟩ := List.forall_mem_cons.mp h
      have hsplit : described (line :: before) = described [line] ++ described before :=
        described_append [line] before
      rw [List.cons_append, readFrom_cons_of_passes hline, ih hbefore, hsplit, insertAll_append,
        List.length_cons, Nat.add_assoc, Nat.add_comm 1]

section
variable {text : String}

/-- If all lines pass, the registry holds what they describe. -/
theorem read_of_passes (h : ∀ line ∈ Text.lines text, Passes line) :
    read text = .ok (empty.insertAll (described (Text.lines text))) := by
  have hall := readFrom_append h empty 1 []
  rw [List.append_nil] at hall
  rw [read, hall, readFrom]

/-- If a line is rejected, the error is that of the first one. -/
theorem read_of_firstRejected {error : RegistryError}
    (h : FirstRejected (Text.lines text) error) : read text = .error error := by
  obtain ⟨before, line, after, hlines, hbefore, hblank, hread, hnumber⟩ := h
  have hplace : 1 + before.length = error.line := by omega
  rw [read, hlines, readFrom_append hbefore, hplace, readFrom, hblank, hread]
  rfl

/-- A registry is read exactly if every line passes, and it is made of all that they describe. -/
theorem read_eq_ok_iff {registry : Registry} :
    read text = .ok registry ↔ (∀ line ∈ Text.lines text, Passes line) ∧
      registry = empty.insertAll (described (Text.lines text)) := by
  constructor
  · intro hread
    rcases passes_or_firstRejected (Text.lines text) with hpasses | ⟨error, hrejected⟩
    · rw [read_of_passes hpasses] at hread
      exact ⟨hpasses, (Except.ok.inj hread).symm⟩
    · rw [read_of_firstRejected hrejected] at hread
      cases hread
  · rintro ⟨hpasses, rfl⟩
    exact read_of_passes hpasses

/-- An error is about the first line that is rejected. -/
theorem read_eq_error_iff {error : RegistryError} :
    read text = .error error ↔ FirstRejected (Text.lines text) error := by
  refine ⟨fun hread => ?_, read_of_firstRejected⟩
  rcases passes_or_firstRejected (Text.lines text) with hpasses | ⟨other, hrejected⟩
  · rw [read_of_passes hpasses] at hread
    cases hread
  · rw [read_of_firstRejected hrejected] at hread
    exact Except.error.inj hread ▸ hrejected

/-- A blank line has a number as well. -/
example : read "LDA\t00\t3\t1\n\nSTA\tZZ\t3\t1\n" = .error ⟨3, .badOpcode "ZZ"⟩ := by
  rfl

end

/-! ## the registry of described instructions -/

theorem distinct_empty : empty.Distinct := List.nodup_nil

/-- The last description of a mnemonic is the one that is found. -/
theorem get?_insertAll_empty (instructions : List Instruction) (mnemonic : String) :
    (empty.insertAll instructions).get? mnemonic = get? ⟨instructions.reverse⟩ mnemonic := by
  rw [get?_insertAll]
  exact Option.or_none

section
variable {lines : List String} {mnemonic : String}

/-- What is found under a mnemonic is in the last line that has it. -/
theorem get?_described_eq_some_iff {found : Instruction} :
    (empty.insertAll (described lines)).get? mnemonic = some found ↔
      LastDescribed lines mnemonic found := by
  rw [get?_insertAll_empty, get?, List.find?_eq_some_iff_append]
  constructor
  · -- The lookup starts at the end, so what it has passed comes from the lines after the one found.
    rintro ⟨hname, later, earlier, hsplit, hlater⟩
    have hlist : described lines = earlier.reverse ++ found :: later.reverse := by
      simpa using congrArg List.reverse hsplit
    obtain ⟨front, rest, rfl, -, hrest⟩ := List.filterMap_eq_append_iff.mp hlist
    obtain ⟨silent, line, after, rfl, -, hline, hafter⟩ := List.filterMap_eq_cons_iff.mp hrest
    refine ⟨front ++ silent, line, after, by simp, ?_, by simpa using hname, ?_⟩
    · cases hread : Instruction.read line with
      | error reason => simp [hread, Except.toOption] at hline
      | ok other => simpa [hread, Except.toOption] using hline
    · intro other hother
      have hmem : other ∈ later := List.mem_reverse.mp (hafter ▸ hother)
      simpa using hlater other hmem
  · rintro ⟨before, line, after, rfl, hread, hname, hafter⟩
    refine ⟨by simpa using hname, (described after).reverse, (described before).reverse, ?_, ?_⟩
    · simp [described_cons_of_ok hread]
    · simpa using hafter

/-- Nothing is found under a mnemonic that no line describes. -/
theorem get?_described_eq_none_iff :
    (empty.insertAll (described lines)).get? mnemonic = none ↔
      ∀ other ∈ described lines, other.mnemonic ≠ mnemonic := by
  rw [get?_insertAll_empty, get?_eq_none_iff]
  simp

/-- There are as many instructions as the lines have mnemonics. -/
theorem size_described (lines : List String) :
    (empty.insertAll (described lines)).size =
      ((described lines).map (·.mnemonic)).toFinset.card := by
  have hdistinct := distinct_empty.insertAll (described lines)
  have hmnemonics : ((empty.insertAll (described lines)).instructions.map (·.mnemonic)).toFinset =
      ((described lines).map (·.mnemonic)).toFinset := by
    ext mnemonic
    rw [List.mem_toFinset, List.mem_toFinset, ← not_iff_not, ← get?_eq_none_iff,
      get?_described_eq_none_iff]
    simp
  rw [← hmnemonics, List.toFinset_card_of_nodup hdistinct, List.length_map, size]

end

/-! ## the order of lines -/

/-- Two registries are one table, whatever order each keeps it in: they find the same under every
mnemonic, hold the same instructions and list them alike. -/
structure Same (first second : Registry) : Prop where
  found : ∀ mnemonic, first.get? mnemonic = second.get? mnemonic
  held : first.instructions.Perm second.instructions
  listed : first.sorted = second.sorted

section
variable {first second : Registry}

/-- The order of a registry does not tell in what is found. -/
theorem get?_of_perm (hdistinct : first.Distinct)
    (hperm : first.instructions.Perm second.instructions) (mnemonic : String) :
    first.get? mnemonic = second.get? mnemonic := by
  have hsecond : second.Distinct := (hperm.map _).nodup_iff.mp hdistinct
  ext found
  rw [get?_eq_some_iff_mem hdistinct, get?_eq_some_iff_mem hsecond, hperm.mem_iff]

/-- Listing by mnemonic forgets the order in which instructions were added. -/
theorem sorted_of_perm (hdistinct : first.Distinct)
    (hperm : first.instructions.Perm second.instructions) : first.sorted = second.sorted := by
  have htotal : ∀ x y : Instruction,
      decide (x.mnemonic ≤ y.mnemonic) = true ∨ decide (y.mnemonic ≤ x.mnemonic) = true := by
    intro x y
    simpa using String.le_total x.mnemonic y.mnemonic
  have htrans : ∀ x y z : Instruction, decide (x.mnemonic ≤ y.mnemonic) = true →
      decide (y.mnemonic ≤ z.mnemonic) = true → decide (x.mnemonic ≤ z.mnemonic) = true := by
    intro x y z hxy hyz
    exact decide_eq_true (String.le_trans (of_decide_eq_true hxy) (of_decide_eq_true hyz))
  have hfirst : first.sorted.Perm first.instructions := stableSort_perm ..
  have hsecond : second.sorted.Perm first.instructions := (stableSort_perm ..).trans hperm.symm
  refine List.Perm.eq_of_pairwise ?_ (pairwise_stableSort htotal htrans _)
    (pairwise_stableSort htotal htrans _) (hfirst.trans hsecond.symm)
  intro x y hx hy hxy hyx
  exact List.inj_on_of_nodup_map hdistinct (hfirst.mem_iff.mp hx) (hsecond.mem_iff.mp hy)
    (String.le_antisymm (of_decide_eq_true hxy) (of_decide_eq_true hyx))

/-- What is found under its mnemonics is all there is to a registry. -/
theorem Same.of_found (hfirst : first.Distinct) (hsecond : second.Distinct)
    (h : ∀ mnemonic, first.get? mnemonic = second.get? mnemonic) : Same first second := by
  have hperm : first.instructions.Perm second.instructions := by
    refine (List.perm_ext_iff_of_nodup (.of_map _ hfirst) (.of_map _ hsecond)).mpr fun found => ?_
    have hmem : ∀ registry : Registry, registry.Distinct →
        (found ∈ registry.instructions ↔ registry.get? found.mnemonic = some found) := by
      intro registry hdistinct
      simp [get?_eq_some_iff_mem hdistinct]
    rw [hmem first hfirst, hmem second hsecond, h]
  exact ⟨h, hperm, sorted_of_perm hfirst hperm⟩

end

/-- Instructions of different mnemonics may be added in any order, whatever is added before and
after them. -/
theorem same_of_rearranged {before block other after : List Instruction}
    (hperm : block.Perm other) (hnodup : (block.map (·.mnemonic)).Nodup) :
    Same (empty.insertAll (before ++ block ++ after))
      (empty.insertAll (before ++ other ++ after)) := by
  refine .of_found (distinct_empty.insertAll _) (distinct_empty.insertAll _) fun mnemonic => ?_
  have hdistinct : Distinct ⟨block.reverse⟩ := by
    have hreverse : (block.reverse.map (·.mnemonic)).Perm (block.map (·.mnemonic)) :=
      (List.reverse_perm block).map _
    exact hreverse.nodup_iff.mpr hnodup
  have hreversed : block.reverse.Perm other.reverse :=
    (List.reverse_perm block).trans (hperm.trans (List.reverse_perm other).symm)
  have hblock : get? ⟨block.reverse⟩ mnemonic = get? ⟨other.reverse⟩ mnemonic :=
    get?_of_perm hdistinct hreversed mnemonic
  simp only [insertAll_append, get?_insertAll, hblock]

/-- **Lines tell the registry.**  A text is a registry exactly if each line of it that is not blank
describes an instruction, and otherwise the error has the number and the reason of the first line
that does not, with blank lines counted.  In the registry of a text the instruction of a mnemonic is
that of the last line which has the mnemonic, there is none if no line has it, and there are as many
instructions as different mnemonics.  A text in which lines of different mnemonics have changed
places, all the lines or some that stand together, is the same table. -/
theorem lines_tell_the_registry (text : String) :
    ((∃ registry, read text = .ok registry) ↔ ∀ line ∈ Text.lines text, Passes line) ∧
    (∀ error, read text = .error error ↔ FirstRejected (Text.lines text) error) ∧
    ∀ registry, read text = .ok registry →
      (∀ mnemonic found, registry.get? mnemonic = some found ↔
        LastDescribed (Text.lines text) mnemonic found) ∧
      (∀ mnemonic, registry.get? mnemonic = none ↔
        ∀ other ∈ described (Text.lines text), other.mnemonic ≠ mnemonic) ∧
      registry.size = ((described (Text.lines text)).map (·.mnemonic)).toFinset.card ∧
      ∀ rearranged before block other after, Text.lines text = before ++ block ++ after →
        Text.lines rearranged = before ++ other ++ after → block.Perm other →
        ((described block).map (·.mnemonic)).Nodup →
        ∃ table, read rearranged = .ok table ∧ Same registry table := by
  refine ⟨?_, fun error => read_eq_error_iff, fun registry hread => ?_⟩
  · exact ⟨fun ⟨registry, hread⟩ => (read_eq_ok_iff.mp hread).1,
      fun hpasses => ⟨_, read_of_passes hpasses⟩⟩
  · obtain ⟨hpasses, rfl⟩ := read_eq_ok_iff.mp hread
    refine ⟨fun mnemonic found => get?_described_eq_some_iff,
      fun mnemonic => get?_described_eq_none_iff, size_described _, ?_⟩
    intro rearranged before block other after hlines hother hperm hnodup
    have hsame : (before ++ block ++ after).Perm (before ++ other ++ after) :=
      (hperm.append_left before).append_right after
    have hall : ∀ line ∈ Text.lines rearranged, Passes line := by
      intro line hline
      rw [hother, ← hsame.mem_iff, ← hlines] at hline
      exact hpasses line hline
    refine ⟨_, read_of_passes hall, ?_⟩
    simp only [hlines, hother, described_append]
    exact same_of_rearranged (hperm.filterMap _) hnodup

/-- A registry with two lines of one mnemonic, and a blank line between them. -/
def listedTwice : String :=
  "LDA\t04\t3\t1\nCLEAR\tB4\t2\t1\r\n \t\nFIX\tC4\t1\t0\nLDA\t00\t3\t1\n"

/-- The same lines, where those in the middle have changed places. -/
def listedTwiceTurned : String :=
  "LDA\t04\t3\t1\nFIX\tC4\t1\t0\nCLEAR\tB4\t2\t1\n \t\nLDA\t00\t3\t1\n"

theorem lines_listedTwice :
    Text.lines listedTwice = ["LDA\t04\t3\t1"] ++ ["CLEAR\tB4\t2\t1", " \t", "FIX\tC4\t1\t0"] ++
      ["LDA\t00\t3\t1"] ∧
    Text.lines listedTwiceTurned =
      ["LDA\t04\t3\t1"] ++ ["FIX\tC4\t1\t0", "CLEAR\tB4\t2\t1", " \t"] ++ ["LDA\t00\t3\t1"] := by
  constructor <;> rfl

theorem described_listedTwice :
    described (Text.lines listedTwice) = [⟨"LDA", 0x04, .three, 1⟩, ⟨"CLEAR", 0xB4, .two, 1⟩,
      ⟨"FIX", 0xC4, .one, 0⟩, ⟨"LDA", 0x00, .three, 1⟩] := by
  rfl

/-- Of the two lines of `LDA` the second one counts, and the lines between may be turned round. -/
theorem registry_of_listedTwice :
    ∃ registry table, read listedTwice = .ok registry ∧
      registry.get? "LDA" = some ⟨"LDA", 0x00, .three, 1⟩ ∧ registry.get? "STA" = none ∧
      registry.size = 3 ∧ read listedTwiceTurned = .ok table ∧ Same registry table := by
  obtain ⟨registry, hread⟩ : ∃ registry, read listedTwice = .ok registry := ⟨_, rfl⟩
  obtain ⟨hfound, hnone, hsize, hturn⟩ := (lines_tell_the_registry listedTwice).2.2 registry hread
  have hperm : ["CLEAR\tB4\t2\t1", " \t", "FIX\tC4\t1\t0"].Perm
      ["FIX\tC4\t1\t0", "CLEAR\tB4\t2\t1", " \t"] := by decide
  obtain ⟨table, htable, hsame⟩ := hturn listedTwiceTurned _ _ _ _ lines_listedTwice.1
    lines_listedTwice.2 hperm (by decide)
  refine ⟨registry, table, hread, ?_, ?_, ?_, htable, hsame⟩
  · exact (hfound "LDA" _).mpr ⟨_, "LDA\t00\t3\t1", [], lines_listedTwice.1, rfl, rfl, by simp⟩
  · exact (hnone "STA").mpr (by simp [described_listedTwice])
  · rw [hsize, described_listedTwice]
    decide

end Registry

end SicXe
