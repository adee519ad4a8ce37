import Mathlib.Data.List.Pairwise
import SicXe.CommandLine.World

/-!
# SicXe.Proofs.FileWrites

Texts that are written one after another.

A path that a text can go to leads to a device or to the place of a file (`World.destination?`),
which may be one that must not be written.  Writing makes no directory and takes none away, and it
leaves alone what may be done with a file, so a path leads where it led before, whatever has been
written: what can be written, and where, is decided by the world in which writing starts.
`Wrote start writes world` says what a world has become by some writes: at each place the last text
that went there, and at all other places what was there at the start.  It is kept by what is printed
and by each write that succeeds (`Wrote.write`).
-/

namespace SicXe.CommandLine

namespace World

/-! ## nodes -/

theorem lookup_entry (place other : Place) (node : Node) (nodes : List (Place × Node)) :
    ((place, node) :: nodes).lookup other =
      if other = place then some node else nodes.lookup other := by
  by_cases h : other = place
  · simp [h]
  · simp [List.lookup_cons, beq_false_of_ne h, h]

theorem lookup_setNodes (place other : Place) (node : Node) (nodes : List (Place × Node)) :
    (setNodes place node nodes).lookup other =
      if other = place then some node else nodes.lookup other := by
  induction nodes with
  | nil => rw [setNodes, lookup_entry]
  | cons entry rest ih =>
      obtain ⟨first, old⟩ := entry
      by_cases hfirst : first = place
      · subst hfirst
        by_cases h : other = first <;> simp [setNodes, lookup_entry, h]
      · rw [setNodes, if_neg hfirst, lookup_entry, lookup_entry, ih]
        by_cases h : other = first <;> simp [h, hfirst]

/-- A new node is found at its place, and nothing changes at the others. -/
theorem node?_setNode {world : World} {place : Place} (h : place ≠ []) (node : Node)
    (other : Place) :
    (world.setNode place node).node? other =
      if other = place then some node else world.node? other := by
  by_cases hother : other = []
  · subst hother
    simp [node?, Ne.symm h]
  · simp only [node?, hother, if_false, setNode, lookup_setNodes]

/-! ## destinations -/

/-- What may be done with the file at a place, which is anything if there is none yet. -/
def access (world : World) (place : Place) : Access :=
  match world.node? place with
  | some (.file _ access) => access
  | _ => {}

/-- What a text is written to. -/
inductive Destination where
  /-- The file at a place, whether it is there already or not, and what may be done with it. -/
  | file (place : Place) (access : Access)
  | device (device : Device)
  deriving Repr, DecidableEq

/-- What a path leads to, for a text to be written to it: there is no writing to a directory, nor
to what is called one by a slash at the end. -/
def destination? (world : World) (text : String) : Option Destination :=
  match Path.read text with
  | .error _ => none
  | .ok path =>
    if path.endsInSlash then none
    else match world.walk (world.start path) path.steps with
      | .error _ => none
      | .ok place =>
        match world.node? place with
        | some .directory => none
        | some (.device device) => some (.device device)
        | some (.file _ _) | none => some (.file place (world.access place))

/-- The place of the file that a path names, whether it is there already or not. -/
def filePlace? (world : World) (text : String) : Option Place :=
  match world.destination? text with
  | some (.file place _) => some place
  | _ => none

/-- A place where a file stands, or where a new one may be made. -/
def IsFilePlace (world : World) (place : Place) : Prop :=
  world.node? place = none ∨
    ∃ contents, world.node? place = some (.file contents (world.access place))

theorem access_of_node? {world : World} {place : Place} {contents : List UInt8} {access : Access}
    (h : world.node? place = some (.file contents access)) : world.access place = access := by
  rw [World.access, h]

/-- What can stand at the place of a file: a file, or nothing. -/
theorem isFilePlace_of_destination? {world : World} {text : String} {place : Place}
    {access : Access} (h : world.destination? text = some (.file place access)) :
    world.IsFilePlace place ∧ world.access place = access := by
  unfold destination? at h
  split at h
  · cases h
  · split at h
    · cases h
    · split at h
      · cases h
      · split at h
        · cases h
        · cases h
        · next contents old hnode =>
            cases h
            exact ⟨Or.inr ⟨contents, by rw [access_of_node? hnode, hnode]⟩, rfl⟩
        · next hnode =>
            cases h
            exact ⟨Or.inl hnode, rfl⟩

theorem isFilePlace_of_filePlace? {world : World} {text : String} {place : Place}
    (h : world.filePlace? text = some place) : world.IsFilePlace place := by
  unfold filePlace? at h
  split at h
  · next hdestination =>
      cases h
      exact (isFilePlace_of_destination? hdestination).1
  · cases h

/-- What writing a text comes to, by where it goes. -/
theorem writeText_cases (world : World) (text contents : String) :
    match world.destination? text with
    | none => ∃ error, world.writeText text contents = .error error
    | some (.file place access) =>
      world.writeText text contents =
        if access.writes then .ok (world.setNode place (.file (Bytes.ofText contents) access))
        else .error .permissionDenied
    | some (.device device) =>
      world.writeText text contents = world.writeDevice contents device := by
  unfold destination? writeText
  cases Path.read text with
  | error error => exact ⟨error, rfl⟩
  | ok path =>
      dsimp only
      unfold writePath
      cases path.endsInSlash with
      | true =>
          simp only [if_true]
          cases world.walk (world.start path) path.stepsAround with
          | error error => exact ⟨error, rfl⟩
          | ok place => exact ⟨.isDirectory, rfl⟩
      | false =>
          simp only [Bool.false_eq_true, if_false]
          cases world.walk (world.start path) path.steps with
          | error error => exact ⟨error, rfl⟩
          | ok place =>
              dsimp only
              unfold writePlace
              unfold access
              cases world.node? place with
              | none => rfl
              | some node =>
                  cases node with
                  | directory => exact ⟨.isDirectory, rfl⟩
                  | file old access => rfl
                  | device device => rfl

/-- Whether a device takes a text has nothing to do with the world around it. -/
theorem isOk_writeDevice (first second : World) (contents : String) (device : Device) :
    (first.writeDevice contents device).isOk = (second.writeDevice contents device).isOk := by
  cases device with
  | full =>
      simp only [writeDevice]
      split <;> rfl
  | _ => rfl

/-- What is written to a device is not kept in the tree. -/
theorem eq_of_writeDevice {world next : World} {contents : String} {device : Device}
    (h : world.writeDevice contents device = .ok next) :
    ∃ out error, next = { world with out := out, error := error } := by
  unfold writeDevice at h
  split at h
  · cases h
    exact ⟨_, _, rfl⟩
  · split at h
    · cases h
      exact ⟨_, _, rfl⟩
    · cases h
  · cases h
    exact ⟨_, _, rfl⟩
  · cases h
    exact ⟨_, _, rfl⟩

/-- Whether a text can be written depends on where it goes only. -/
theorem isOk_writeText {first second : World} {text : String}
    (h : first.destination? text = second.destination? text) (contents : String) :
    (first.writeText text contents).isOk = (second.writeText text contents).isOk := by
  have hfirst := writeText_cases first text contents
  have hsecond := writeText_cases second text contents
  rw [h] at hfirst
  cases hgoal : second.destination? text with
  | none =>
      rw [hgoal] at hfirst hsecond
      obtain ⟨error, hfirst⟩ := hfirst
      obtain ⟨other, hsecond⟩ := hsecond
      rw [hfirst, hsecond]
      rfl
  | some goal =>
      rw [hgoal] at hfirst hsecond
      cases goal with
      | file place access =>
          dsimp only at hfirst hsecond
          rw [hfirst, hsecond]
          split <;> rfl
      | device device =>
          dsimp only at hfirst hsecond
          rw [hfirst, hsecond, isOk_writeDevice]

/-! ## writes one after another -/

/-- What stands at a place once texts have been written in order, each to the end of its path: the
last of those that go to the file at this place, if there are any.  What may be done with the file
is what it was. -/
def after (world : World) (writes : List (String × String)) (place : Place) : Option Node :=
  match (writes.filter fun write => world.filePlace? write.1 = some place).getLast? with
  | some write => some (.file (Bytes.ofText write.2) (world.access place))
  | none => world.node? place

theorem after_concat (world : World) (writes : List (String × String)) (write : String × String)
    (place : Place) :
    world.after (writes ++ [write]) place =
      if world.filePlace? write.1 = some place then
        some (.file (Bytes.ofText write.2) (world.access place))
      else world.after writes place := by
  by_cases h : world.filePlace? write.1 = some place <;> simp [after, h]

/-- Nothing happens at a place that no text goes to. -/
theorem after_of_forall_ne {world : World} {writes : List (String × String)} {place : Place}
    (h : ∀ write ∈ writes, world.filePlace? write.1 ≠ some place) :
    world.after writes place = world.node? place := by
  have hnone : writes.filter (fun write => world.filePlace? write.1 = some place) = [] := by
    simpa [List.filter_eq_nil_iff] using h
  rw [after, hnone]
  rfl

/-- Two paths name different files, if both name one. -/
def Apart (world : World) (first second : String) : Prop :=
  ∀ place, world.filePlace? first = some place → world.filePlace? second ≠ some place

theorem apart_of_ne {world : World} {first second : String}
    (h : world.filePlace? first ≠ world.filePlace? second) : world.Apart first second :=
  fun _ hfirst hsecond => h (hfirst.trans hsecond.symm)

/-- If all paths name different files, each file holds the text that was written to it. -/
theorem after_of_apart {world : World} {writes outputs : List (String × String)}
    (hsub : writes ⊆ outputs)
    (hapart : outputs.Pairwise fun first second => world.Apart first.1 second.1)
    {output : String × String} (houtput : output ∈ outputs) {place : Place}
    (hplace : world.filePlace? output.1 = some place) :
    world.after writes place =
      if output ∈ writes then some (.file (Bytes.ofText output.2) (world.access place))
      else world.node? place := by
  have hsymm : Std.Symm fun first second : String × String => world.Apart first.1 second.1 :=
    ⟨fun first second h place hsecond hfirst => h place hfirst hsecond⟩
  have honly : ∀ write ∈ writes, world.filePlace? write.1 = some place → write = output := by
    intro write hwrite hsame
    by_contra hne
    exact hapart.forall (hsub hwrite) houtput hne place hsame hplace
  split
  · next hmem =>
      have hfound : output ∈ writes.filter fun write => world.filePlace? write.1 = some place :=
        List.mem_filter.mpr ⟨hmem, decide_eq_true hplace⟩
      unfold after
      split
      · next last hlast =>
          obtain ⟨hwrite, hsame⟩ := List.mem_filter.mp (List.mem_of_getLast? hlast)
          rw [honly last hwrite (of_decide_eq_true hsame)]
      · next hnone =>
          rw [List.getLast?_eq_none_iff.mp hnone] at hfound
          cases hfound
  · next hmem =>
      refine after_of_forall_ne fun write hwrite hsame => hmem ?_
      exact honly write hwrite hsame ▸ hwrite

/-- Nothing but files changes. -/
theorem after_eq (world : World) (writes : List (String × String)) (place : Place) :
    world.after writes place = world.node? place ∨
      (∃ contents, world.after writes place = some (.file contents (world.access place))) ∧
        world.IsFilePlace place := by
  unfold after
  split
  · next write hlast =>
      have hmem := (List.mem_filter.mp (List.mem_of_getLast? hlast)).2
      exact Or.inr ⟨⟨_, rfl⟩, isFilePlace_of_filePlace? (of_decide_eq_true hmem)⟩
  · exact Or.inl rfl

/-- A world in which texts were written that began as another. -/
structure Wrote (start : World) (writes : List (String × String)) (world : World) : Prop where
  working : world.working = start.working
  nodes : ∀ place, world.node? place = start.after writes place

theorem wrote_nil (world : World) : Wrote world [] world :=
  ⟨rfl, fun _ => rfl⟩

namespace Wrote

variable {start world : World} {writes : List (String × String)}

/-- What is printed, by whatever way, is not written. -/
theorem print (h : Wrote start writes world) (out error : String) :
    Wrote start writes { world with out := out, error := error } :=
  ⟨h.working, h.nodes⟩

/-- A path leads to the same place as it did at the start, or nowhere as it did at the start.  It
may lead nowhere for another reason: a file may now stand where a directory was missing. -/
theorem toOption_walk (h : Wrote start writes world) (place : Place) (steps : List Path.Step) :
    (world.walk place steps).toOption = (start.walk place steps).toOption := by
  induction steps generalizing place with
  | nil => rfl
  | cons step rest ih =>
      have hnode := h.nodes place
      rcases start.after_eq writes place with hsame | ⟨⟨contents, hfile⟩, hstart⟩
      · unfold walk
        rw [hnode, hsame]
        cases start.node? place with
        | none => rfl
        | some node =>
            cases node with
            | directory =>
                cases step with
                | stay => exact ih place
                | up => exact ih place.tail
                | down name =>
                    dsimp only
                    split
                    · rfl
                    · exact ih (name :: place)
            | file contents access => rfl
            | device device => rfl
      · unfold walk
        rw [hnode, hfile]
        rcases hstart with hnone | ⟨old, hold⟩
        · rw [hnone]
          rfl
        · rw [hold]

/-- What may be done with a file stays as it is. -/
theorem access_eq (h : Wrote start writes world) (place : Place) :
    world.access place = start.access place := by
  rcases start.after_eq writes place with hsame | ⟨⟨contents, hfile⟩, -⟩
  · rw [World.access, h.nodes, hsame, World.access]
  · exact access_of_node? ((h.nodes place).trans hfile)

/-- **Writing does not change where texts go.** -/
theorem destination?_eq (h : Wrote start writes world) (text : String) :
    world.destination? text = start.destination? text := by
  unfold destination?
  cases Path.read text with
  | error error => rfl
  | ok path =>
      dsimp only
      split
      · rfl
      · have hwalk := h.toOption_walk (start.start path) path.steps
        have hstart : world.start path = start.start path := by
          unfold World.start
          rw [h.working]
        rw [hstart]
        cases hw : world.walk (start.start path) path.steps with
        | error error =>
            cases hs : start.walk (start.start path) path.steps with
            | error other => rfl
            | ok place => simp [hw, hs, Except.toOption] at hwalk
        | ok place =>
            cases hs : start.walk (start.start path) path.steps with
            | error other => simp [hw, hs, Except.toOption] at hwalk
            | ok goal =>
                obtain rfl : place = goal := by simpa [hw, hs, Except.toOption] using hwalk
                dsimp only
                rw [h.nodes place, h.access_eq place]
                rcases start.after_eq writes place with hsame | ⟨⟨contents, hfile⟩, hnode⟩
                · rw [hsame]
                · rw [hfile]
                  rcases hnode with hnone | ⟨old, hold⟩
                  · rw [hnone]
                  · rw [hold]

/-- **A text that could be written at the start is written**, and nothing else happens. -/
theorem write (h : Wrote start writes world) {text contents : String}
    (hok : (start.writeText text contents).isOk = true) :
    ∃ next, world.writeText text contents = .ok next ∧
      Wrote start (writes ++ [(text, contents)]) next := by
  have hgoal := h.destination?_eq text
  rw [← isOk_writeText hgoal contents] at hok
  have hwrite := writeText_cases world text contents
  rw [hgoal] at hwrite
  cases hdestination : start.destination? text with
  | none =>
      rw [hdestination] at hwrite
      obtain ⟨error, hwrite⟩ := hwrite
      rw [hwrite] at hok
      cases hok
  | some goal =>
      rw [hdestination] at hwrite
      cases goal with
      | file place access =>
          have hplace : start.filePlace? text = some place := by
            rw [filePlace?, hdestination]
          obtain ⟨hfile, haccess⟩ := isFilePlace_of_destination? hdestination
          -- A file never stands at the root, which is a directory.
          have hne : place ≠ [] := by
            rintro rfl
            simp [IsFilePlace, node?] at hfile
          dsimp only at hwrite
          split at hwrite
          · refine ⟨_, hwrite, h.working, fun other => ?_⟩
            rw [node?_setNode hne, after_concat, h.nodes, hplace]
            by_cases hother : other = place
            · simp [hother, haccess]
            · simp [hother, Ne.symm hother]
          · rw [hwrite] at hok
            cases hok
      | device device =>
          have hplace : start.filePlace? text = none := by
            rw [filePlace?, hdestination]
          dsimp only at hwrite
          cases hnext : world.writeDevice contents device with
          | error error =>
              rw [hwrite, hnext] at hok
              cases hok
          | ok next =>
              obtain ⟨out, error, rfl⟩ := eq_of_writeDevice hnext
              refine ⟨_, hwrite.trans hnext, h.working, fun other => ?_⟩
              rw [after_concat, hplace]
              exact h.nodes other

/-- A text that could not be written at the start cannot be written now. -/
theorem writeText_error (h : Wrote start writes world) {text contents : String}
    (hok : (start.writeText text contents).isOk = false) :
    ∃ error, world.writeText text contents = .error error := by
  rw [← isOk_writeText (h.destination?_eq text) contents] at hok
  cases hwrite : world.writeText text contents with
  | error error => exact ⟨error, rfl⟩
  | ok next => rw [hwrite] at hok; cases hok

end Wrote

end World

end SicXe.CommandLine
