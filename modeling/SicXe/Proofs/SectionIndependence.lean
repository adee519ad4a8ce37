import SicXe.Proofs.LineNumbers

/-!
# SicXe.Proofs.SectionIndependence

Source texts put one behind another.

If the first text ends with a whole line and the second one opens a section, the lines of both are
the lines of the one and then of the other, and no section has lines of both.  So the sections are
those of the one and then those of the other, further down (`sections_are_independent`), and
nothing that happens in the one is seen in the other.
-/

namespace SicXe

namespace Text

/-! ## the lines of a text -/

theorem pieces_cons (separator c : Char) (cs : List Char) :
    pieces separator (c :: cs) =
      if c = separator then [] :: pieces separator cs
      else match pieces separator cs with
        | [] => [[c]]
        | piece :: more => (c :: piece) :: more := rfl

theorem pieces_ne_nil (separator : Char) (cs : List Char) : pieces separator cs ≠ [] := by
  cases cs with
  | nil => simp [pieces]
  | cons c rest =>
      rw [pieces_cons]
      split
      · simp
      · split <;> simp

/-- A separator at the end of a text divides its pieces from those of what follows. -/
theorem pieces_append_separator (separator : Char) (xs ys : List Char) :
    pieces separator (xs ++ separator :: ys) = pieces separator xs ++ pieces separator ys := by
  induction xs with
  | nil => simp [pieces]
  | cons x rest ih =>
      rw [List.cons_append, pieces_cons, pieces_cons, ih]
      split
      · rfl
      · cases hpieces : pieces separator rest with
        | nil => exact absurd hpieces (pieces_ne_nil separator rest)
        | cons piece more => rfl

/-- All pieces that others follow are whole lines. -/
theorem linesOfPieces_append (first : List (List Char)) {second : List (List Char)}
    (hne : second ≠ []) :
    linesOfPieces (first ++ second) = first.map dropReturn ++ linesOfPieces second := by
  induction first with
  | nil => rfl
  | cons piece rest ih =>
      cases hrest : rest ++ second with
      | nil => exact absurd (List.append_eq_nil_iff.mp hrest).2 hne
      | cons next more =>
          rw [hrest] at ih
          rw [List.cons_append, hrest, List.map_cons, List.cons_append, ← ih]
          rfl

/-- Whether a text consists of whole lines: it is empty or ends with a line feed. -/
def WholeLines (text : String) : Prop :=
  text = "" ∨ text.toList.getLast? = some '\n'

/-- The lines of a text behind whole lines. -/
theorem lines_append {first : String} (hfirst : WholeLines first) (second : String) :
    lines (first ++ second) = lines first ++ lines second := by
  rcases hfirst with rfl | hlast
  · rw [String.empty_append]
    rfl
  · obtain ⟨xs, hxs⟩ := List.getLast?_eq_some_iff.mp hlast
    have hpieces : pieces '\n' first.toList = pieces '\n' xs ++ [[]] := by
      rw [hxs]
      exact pieces_append_separator '\n' xs []
    have hboth : pieces '\n' (first ++ second).toList =
        pieces '\n' xs ++ pieces '\n' second.toList := by
      rw [String.toList_append, hxs, List.append_assoc]
      exact pieces_append_separator '\n' xs second.toList
    rw [lines, lines, lines, hpieces, hboth, linesOfPieces_append _ (pieces_ne_nil _ _),
      linesOfPieces_append _ (List.cons_ne_nil _ _), List.map_append, List.map_append]
    simp [linesOfPieces]

end Text

namespace Program

/-! ## lines and sections -/

/-- The lines of a second text go on counting behind those of the first. -/
theorem numberedLines_append {first : String} (hfirst : Text.WholeLines first) (second : String) :
    numberedLines (first ++ second) =
      numberedLines first ++ shiftLines (Text.lines first).length (numberedLines second) := by
  rw [numberedLines, numberedLines, numberedLines, Text.lines_append hfirst, List.zipIdx_append,
    List.map_append, shiftLines, List.map_map, Nat.add_comm 1, ← List.map_snd_add_zipIdx_eq_zipIdx,
    List.map_map]
  rfl

/-- Lines that open a section with their first one begin no other. -/
theorem cutSections_append (first : List (Nat × String)) {second : List (Nat × String)}
    (hsecond : (cutSections second).1 = []) :
    cutSections (first ++ second) =
      ((cutSections first).1, (cutSections first).2 ++ (cutSections second).2) := by
  induction first with
  | nil => exact Prod.ext hsecond rfl
  | cons line rest ih =>
      rw [List.cons_append, cutSections_cons, cutSections_cons, ih]
      split <;> rfl

/-- Where lines are cut into sections does not depend on their numbers. -/
theorem cutSections_shiftLines (n : Nat) (lines : List (Nat × String)) :
    cutSections (shiftLines n lines) =
      (shiftLines n (cutSections lines).1, (cutSections lines).2.map (shiftLines n)) := by
  induction lines with
  | nil => rfl
  | cons line rest ih =>
      rw [shiftLines, List.map_cons, cutSections_cons, cutSections_cons]
      rw [shiftLines] at ih
      rw [ih]
      split <;> rfl

/-- The sections of a program are its chunks of lines, each assembled by itself. -/
theorem sections_assemble (registry : Registry) (source : String) :
    (assemble registry source).sections =
      (cutSections (numberedLines source)).2.map fun lines =>
        (assembleSection registry lines).1 := by
  rw [assemble, sections_ofResults, sectionResults, List.map_map]
  rfl

/-- Whether the first line of a text opens a section. -/
def startsSection (text : String) : Bool :=
  (Text.lines text).head?.any opensSection

/-- A text that starts with a section has no line outside sections. -/
theorem cutSections_of_startsSection {text : String} (h : startsSection text = true) :
    (cutSections (numberedLines text)).1 = [] := by
  unfold startsSection at h
  rw [numberedLines]
  cases hlines : Text.lines text with
  | nil => rfl
  | cons line rest =>
      have hopens : opensSection line = true := by simpa [hlines] using h
      simp only [List.zipIdx_cons, List.map_cons, cutSections_cons, hopens, if_true]

/-- The sections of a text that opens one, behind whole lines. -/
theorem sections_append_of_startsSection (registry : Registry) {first second : String}
    (hfirst : Text.WholeLines first) (hsecond : startsSection second = true) :
    (assemble registry (first ++ second)).sections =
      (assemble registry first).sections ++
        (assemble registry second).sections.map (Section.shiftLines (Text.lines first).length) := by
  have hcut := cutSections_shiftLines (Text.lines first).length (numberedLines second)
  rw [cutSections_of_startsSection hsecond] at hcut
  rw [sections_assemble, sections_assemble, sections_assemble, numberedLines_append hfirst,
    cutSections_append _ (congrArg Prod.fst hcut), hcut]
  simp only [List.map_append, List.map_map, Function.comp_def, assembleSection_shiftLines]

/-- What follows a text does not change that it starts with a section. -/
theorem startsSection_append {first : String} (hwhole : Text.WholeLines first)
    (h : startsSection first = true) (second : String) :
    startsSection (first ++ second) = true := by
  unfold startsSection at h ⊢
  rw [Text.lines_append hwhole]
  cases hlines : Text.lines first with
  | nil => simp [hlines] at h
  | cons line rest => simpa [hlines] using h

/-- **Sections are independent.**  The sections of a text behind whole lines, if it opens one with
its first line, are what they are by themselves, only as many lines further down.  So whatever
whole lines stand between two texts, from a line that opens a section on, the sections before them
stay the same, and those behind them change only in how far down their statements stand. -/
theorem sections_are_independent (registry : Registry) :
    (∀ first second : String, Text.WholeLines first → startsSection second = true →
      (assemble registry (first ++ second)).sections =
        (assemble registry first).sections ++
          (assemble registry second).sections.map
            (Section.shiftLines (Text.lines first).length)) ∧
    (∀ before part after : String, Text.WholeLines before → Text.WholeLines part →
      startsSection part = true → startsSection after = true →
      (assemble registry (before ++ (part ++ after))).sections =
        (assemble registry before).sections ++
          ((assemble registry part).sections.map
              (Section.shiftLines (Text.lines before).length) ++
            (assemble registry after).sections.map
              (Section.shiftLines ((Text.lines part).length + (Text.lines before).length)))) := by
  refine ⟨fun first second => sections_append_of_startsSection registry, ?_⟩
  intro before part after hbefore hwhole hpart hafter
  rw [sections_append_of_startsSection registry hbefore (startsSection_append hwhole hpart after),
    sections_append_of_startsSection registry hwhole hafter, List.map_append, List.map_map]
  have htwice : Section.shiftLines (Text.lines before).length ∘
      Section.shiftLines (Text.lines part).length =
        Section.shiftLines ((Text.lines part).length + (Text.lines before).length) := by
    funext sect
    exact sect.shiftLines_shiftLines ..
  rw [htwice]

/-- A section that leaves its base register set and a literal unplaced, one with a pool, and one
that refers to the first: each is assembled as if the others were not there. -/
theorem sections_are_independent_threeParts :
    (assemble loadRegistry ("MAIN\tSTART\t0\n\tBASE\tMAIN\n\tLDA\t=C'EOF'\n" ++
        "READ\tCSECT\n\tLDA\t=C'EOF'\n\tLTORG\n")).sections =
      (assemble loadRegistry "MAIN\tSTART\t0\n\tBASE\tMAIN\n\tLDA\t=C'EOF'\n").sections ++
        (assemble loadRegistry "READ\tCSECT\n\tLDA\t=C'EOF'\n\tLTORG\n").sections.map
          (Section.shiftLines 3) ∧
    (assemble loadRegistry ("MAIN\tSTART\t0\n\tBASE\tMAIN\n\tLDA\t=C'EOF'\n" ++
        ("READ\tCSECT\n\tLDA\t=C'EOF'\n\tLTORG\n" ++ "WRITE\tCSECT\n\tLDA\tMAIN\n"))).sections =
      (assemble loadRegistry "MAIN\tSTART\t0\n\tBASE\tMAIN\n\tLDA\t=C'EOF'\n").sections ++
        ((assemble loadRegistry "READ\tCSECT\n\tLDA\t=C'EOF'\n\tLTORG\n").sections.map
            (Section.shiftLines 3) ++
          (assemble loadRegistry "WRITE\tCSECT\n\tLDA\tMAIN\n").sections.map
            (Section.shiftLines 6)) :=
  ⟨(sections_are_independent loadRegistry).1 _ _ (.inr (by decide)) (by decide +kernel),
    (sections_are_independent loadRegistry).2 _ _ _ (.inr (by decide)) (.inr (by decide))
      (by decide +kernel) (by decide +kernel)⟩

end Program

end SicXe
