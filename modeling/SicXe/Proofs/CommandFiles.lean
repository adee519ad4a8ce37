import Mathlib.Data.List.TakeWhile
import SicXe.CommandLine.Run
import SicXe.Proofs.FileWrites
import SicXe.Proofs.SectionWorkers

/-!
# SicXe.Proofs.CommandFiles

How a command ends, and what it does to files.

Everything is read before anything is written, so the texts that a command writes are those of the
world it starts in, also if they are written over what was read.  A command prints at every turn,
which changes no file; what it writes is followed by `World.Wrote`, first through the list of
outputs (`writeFiles_wrote`, by induction on what is left to write) and then through the command.
-/

namespace SicXe.CommandLine

/-- Whether a text can be written. -/
def World.accepts (world : World) (write : String × String) : Bool :=
  (world.writeText write.1 write.2).isOk

/-! ## effects on a model world -/

@[simp] theorem run_readText (path : String) (world : World) :
    (Host.model.readText path).run world = pure (world.readText path, world) := rfl

@[simp] theorem run_printOut (text : String) (world : World) :
    (Host.model.printOut text).run world = pure ((), { world with out := world.out ++ text }) := rfl

@[simp] theorem run_printError (text : String) (world : World) :
    (Host.model.printError text).run world =
      pure ((), { world with error := world.error ++ text }) := rfl

/-- A write that is taken leaves the world it says. -/
theorem run_writeText_of_ok {path contents : String} {world next : World}
    (h : world.writeText path contents = .ok next) :
    (Host.model.writeText path contents).run world = pure (.ok (), next) := by
  simp [Host.model, h]

/-- A write that is refused leaves the world as it was. -/
theorem run_writeText_of_error {path contents : String} {world : World} {error : FileError}
    (h : world.writeText path contents = .error error) :
    (Host.model.writeText path contents).run world = pure (.error error, world) := by
  simp [Host.model, h]

/-! ## writing outputs -/

/-- **Outputs are written up to the first that fails**, and which one that is can be told from the
world in which writing starts. -/
theorem writeFiles_wrote {start world : World} {written : List (String × String)}
    (h : World.Wrote start written world) (rest : List (String × String)) :
    World.Wrote start (written ++ rest.takeWhile start.accepts)
      ((writeFiles Host.model rest).run world).2 ∧
    ((writeFiles Host.model rest).run world).1.isOk = rest.all start.accepts := by
  induction rest generalizing written world with
  | nil => simpa using ⟨h, rfl⟩
  | cons output rest ih =>
      obtain ⟨path, contents⟩ := output
      have hprinted := h.print (world.out ++ targetLine "Writing" path) world.error
      rw [writeFiles, StateT.run_bind, run_printOut, pure_bind, StateT.run_bind]
      cases haccepts : start.accepts (path, contents) with
      | true =>
          obtain ⟨next, hwrite, hnext⟩ := hprinted.write haccepts
          obtain ⟨hwrote, hok⟩ := ih hnext
          rw [List.append_assoc, List.singleton_append] at hwrote
          rw [run_writeText_of_ok hwrite, pure_bind]
          simpa [haccepts] using ⟨hwrote, hok⟩
      | false =>
          obtain ⟨error, hwrite⟩ := hprinted.writeText_error haccepts
          rw [run_writeText_of_error hwrite, pure_bind]
          simpa [haccepts] using ⟨hprinted, rfl⟩

/-! ## the command -/

/-- Whether a command rejects a program: an error was reported, or warnings are denied and anything
was reported. -/
def Rejects (options : Options) (program : Program) : Prop :=
  (∃ diagnostic ∈ program.diagnostics, diagnostic.severity = .error) ∨
    options.denyWarnings = true ∧ program.diagnostics ≠ []

instance (options : Options) (program : Program) : Decidable (Rejects options program) :=
  inferInstanceAs (Decidable (_ ∨ _))

/-- The test that the command makes at its end is `Rejects`. -/
theorem isRejected_iff (options : Options) (program : Program) :
    isRejected options program = true ↔ Rejects options program := by
  simp [isRejected, Rejects, Program.hasErrors, Diagnostic.isError]

/-- The status of a command that has written all its outputs. -/
def statusOf (options : Options) (program : Program) : ExitStatus :=
  if Rejects options program then .rejected else .success

/-- The end of the command tells how it ended, and touches no file. -/
theorem conclude_wrote {start world : World} {written : List (String × String)}
    (h : World.Wrote start written world) (options : Options) (program : Program) :
    World.Wrote start written ((conclude Host.model options program).run world).2 ∧
      ((conclude Host.model options program).run world).1 = statusOf options program := by
  by_cases hrejects : Rejects options program
  · have hrejected := (isRejected_iff options program).mpr hrejects
    simpa [conclude, hrejected, statusOf, hrejects] using ⟨h.print _ _, rfl⟩
  · have hrejected := mt (isRejected_iff options program).mp hrejects
    simpa [conclude, hrejected, statusOf, hrejects] using ⟨h.print _ _, rfl⟩

/-- Sections may be worked on at the same time or not. -/
theorem program_eq (options : Options) (registry : Registry) (source : String) :
    (if options.parallel then Program.assembleParallel registry source
      else Program.assemble registry source) = Program.assemble registry source := by
  have hparallel : Program.assembleParallel registry source = Program.assemble registry source :=
    Program.ofChannel_of_perm (.refl _)
  rw [hparallel, ite_self]

/-- **A command that has read everything** writes its outputs up to the first that fails, and tells
by its status whether all were written and what was reported. -/
theorem assembleSource_wrote {start world : World} (h : World.Wrote start [] world)
    (options : Options) (registry : Registry) (source : String) :
    let program := Program.assemble registry source
    let ended := (assembleSource Host.model options registry source).run world
    World.Wrote start ((outputs options program).takeWhile start.accepts) ended.2 ∧
    ended.1 = if (outputs options program).all start.accepts then statusOf options program
      else .fileTrouble := by
  intro program
  rw [assembleSource, program_eq]
  simp only [StateT.run_bind, run_printOut, run_printError, pure_bind]
  generalize world.out ++ _ = out, world.error ++ _ ++ _ = error
  have hwritten := writeFiles_wrote (h.print out error) (outputs options program)
  rw [List.nil_append] at hwritten
  generalize (writeFiles Host.model (outputs options program)).run _ = ended at hwritten ⊢
  obtain ⟨result, next⟩ : Except FileError Unit × World := ended
  obtain ⟨hwrote, hok⟩ := hwritten
  cases result with
  | error error =>
      have hfailed : (outputs options program).all start.accepts = false := hok.symm
      rw [hfailed]
      exact ⟨hwrote.print _ _, rfl⟩
  | ok done =>
      have hall : (outputs options program).all start.accepts = true := hok.symm
      rw [hall, if_pos rfl]
      exact conclude_wrote hwrote options program

/-- The registry and the source that a command reads. -/
def Reads (world : World) (options : Options) (registry : Registry) (source : String) : Prop :=
  (∃ text, world.readText options.registry = .ok text ∧ Registry.read text = .ok registry) ∧
    world.readText options.input = .ok source

/-- If registry and source can be read, the command assembles the source. -/
theorem run_of_reads {world : World} {options : Options} {registry : Registry} {source : String}
    (h : Reads world options registry source) :
    (run Host.model options).run world =
      (assembleSource Host.model options registry source).run world := by
  obtain ⟨⟨text, htext, hregistry⟩, hsource⟩ := h
  simp [run, Registry.load, htext, hregistry, hsource]

/-- A command that cannot read what it needs prints why, and that is all. -/
theorem run_of_not_reads {world : World} {options : Options}
    (h : ¬ ∃ registry source, Reads world options registry source) :
    ∃ error, (run Host.model options).run world =
      (.fileTrouble, { world with error := error }) := by
  cases htext : world.readText options.registry with
  | error trouble => exact ⟨_, by simp [run, Registry.load, htext]; rfl⟩
  | ok text =>
      cases hregistry : Registry.read text with
      | error trouble => exact ⟨_, by simp [run, Registry.load, htext, hregistry]; rfl⟩
      | ok registry =>
          cases hsource : world.readText options.input with
          | error trouble => exact ⟨_, by simp [run, Registry.load, htext, hregistry, hsource]; rfl⟩
          | ok source => exact absurd ⟨registry, source, ⟨text, htext, hregistry⟩, hsource⟩ h

theorem takeWhile_eq_self_iff_all {p : α → Bool} {items : List α} :
    items.takeWhile p = items ↔ items.all p = true := by
  rw [List.takeWhile_eq_self_iff, List.all_eq_true]

/-- **How a command ends and what it writes**, whatever the world and the options are.

If the registry cannot be read or is malformed, or the source cannot be read, the status is 2 and
the tree stays as it is.  Otherwise the object records, the symbols and the literals of the program
are written in this order up to the first that cannot be, whatever was reported.  If one cannot be,
the status is 2; if all are written it is 1 for a program that is rejected and 0 for any other.  At
each place stands the last text that was written there, and at places that no written output goes
to what was there before.  In particular, if the three paths name different files, each file holds
its own text if it was written, with what may be done with it as before, and is untouched
otherwise. -/
theorem command_ends_and_writes (world : World) (options : Options) :
    let ended := (run Host.model options).run world
    ((¬ ∃ registry source, Reads world options registry source) →
      ended.1.code = 2 ∧ ended.2.nodes = world.nodes) ∧
    ∀ registry source, Reads world options registry source →
      let program := Program.assemble registry source
      let outputs := [(options.output, program.objectText),
        (options.symbols, program.symbolListing), (options.literals, program.literalListing)]
      let written := outputs.takeWhile world.accepts
      (written ≠ outputs → ended.1.code = 2) ∧
      (written = outputs → ended.1.code = if Rejects options program then 1 else 0) ∧
      (∀ place, ended.2.node? place = world.after written place) ∧
      (∀ place, (∀ output ∈ written, world.filePlace? output.1 ≠ some place) →
        ended.2.node? place = world.node? place) ∧
      ([options.output, options.symbols, options.literals].Pairwise world.Apart →
        ∀ output ∈ outputs, ∀ place, world.filePlace? output.1 = some place →
          ended.2.node? place =
            if output ∈ written then some (.file (Bytes.ofText output.2) (world.access place))
            else world.node? place) := by
  intro ended
  constructor
  · intro hunread
    obtain ⟨error, hrun⟩ := run_of_not_reads hunread
    have hended : ended = _ := hrun
    rw [hended]
    exact ⟨rfl, rfl⟩
  · intro registry source hreads program outputs written
    obtain ⟨hwrote, hstatus⟩ :=
      assembleSource_wrote (World.wrote_nil world) options registry source
    rw [← run_of_reads hreads] at hwrote hstatus
    have hnodes : ∀ place, ended.2.node? place = world.after written place := hwrote.nodes
    have hstatus : ended.1 = if outputs.all world.accepts then statusOf options program
      else .fileTrouble := hstatus
    refine ⟨?_, ?_, hnodes, ?_, ?_⟩
    · intro hstopped
      rw [hstatus, if_neg (mt takeWhile_eq_self_iff_all.mpr hstopped)]
      rfl
    · intro hall
      rw [hstatus, if_pos (takeWhile_eq_self_iff_all.mp hall), statusOf]
      split <;> rfl
    · intro place hother
      rw [hnodes, World.after_of_forall_ne hother]
    · intro hapart output houtput place hplace
      have houtputs : outputs.Pairwise fun first second => world.Apart first.1 second.1 := by
        simpa [outputs] using hapart
      rw [hnodes, World.after_of_apart (List.takeWhile_subset _) houtputs houtput hplace]

/-- A source that defines a symbol twice. -/
def doubleSource : String :=
  "P\tSTART\t0\nP\tLDA\t#1\n\tEND\tP\n"

/-- A world with that source and a registry to read it with, a file that may not be written and one
that may not be read. -/
def workshop : World :=
  let files : List (String × String × Access) :=
    [("inst.data", "LDA\t00\t3\t1\n", {}), ("input.txt", doubleSource, {}),
      ("kept", "old\n", { writes := false }), ("secret", "LDA\t00\t3\t1\n", { reads := false })]
  files.foldl (fun world (path, text, access) => world.addFile path (Bytes.ofText text) access)
    World.fresh

/-- Both inputs of the workshop can be read. -/
theorem reads_workshop {options : Options} (hregistry : options.registry = "inst.data")
    (hinput : options.input = "input.txt") :
    Reads workshop options Program.loadRegistry doubleSource := by
  refine ⟨⟨"LDA\t00\t3\t1\n", ?_, rfl⟩, ?_⟩
  · rw [hregistry]
    rfl
  · rw [hinput]
    rfl

/-- Object records in place of the source, and symbols in a directory that is not there. -/
def strayOptions : Options :=
  { output := "input.txt", symbols := "none/symbols" }

/-- Symbols in place of a file that may not be written. -/
def keptOptions : Options :=
  { symbols := "kept" }

/-- In a world without files there is no registry to read. -/
theorem not_reads_fresh :
    ¬ ∃ registry source, Reads World.fresh {} registry source := by
  rintro ⟨registry, source, ⟨text, htext, -⟩, -⟩
  cases htext

/-- A file that may not be read is no registry. -/
theorem not_reads_secret :
    ¬ ∃ registry source, Reads workshop { registry := "secret" } registry source := by
  rintro ⟨registry, source, ⟨text, htext, -⟩, -⟩
  cases htext

/-- The object records of that source. -/
def doubleRecords : String :=
  "HP     000003\nT00000003010001\nE000000\n\n"

/-- Nothing can be done without a registry, or with one that may not be read.  The object records
may be written over the source, and they stay there if the symbols cannot be written, because there
is no directory for them or because they would go to a file that may not be written, which is left
as it was; the literals are then not written at all.  If all is written, the symbol that is defined
twice still counts. -/
theorem command_of_workshop :
    ((run Host.model {}).run World.fresh).1.code = 2 ∧
    ((run Host.model { registry := "secret" }).run workshop).1.code = 2 ∧
    ((run Host.model strayOptions).run workshop).1.code = 2 ∧
    ((run Host.model strayOptions).run workshop).2.node? ["input.txt", "work", "tmp"] =
      some (.file (Bytes.ofText doubleRecords) {}) ∧
    ((run Host.model strayOptions).run workshop).2.node? ["literaltab_0000", "work", "tmp"] = none ∧
    ((run Host.model keptOptions).run workshop).1.code = 2 ∧
    ((run Host.model keptOptions).run workshop).2.node? ["output_0000", "work", "tmp"] =
      some (.file (Bytes.ofText doubleRecords) {}) ∧
    ((run Host.model keptOptions).run workshop).2.node? ["kept", "work", "tmp"] =
      some (.file (Bytes.ofText "old\n") { writes := false }) ∧
    ((run Host.model {}).run workshop).1.code = 1 := by
  obtain ⟨hunread, -⟩ := (command_ends_and_writes World.fresh {}).1 not_reads_fresh
  obtain ⟨hsecret, -⟩ := (command_ends_and_writes workshop _).1 not_reads_secret
  obtain ⟨hstray, -, -, -, hstrayed⟩ :=
    (command_ends_and_writes workshop strayOptions).2 _ _ (reads_workshop rfl rfl)
  obtain ⟨hkept, -, -, -, hfiles⟩ :=
    (command_ends_and_writes workshop keptOptions).2 _ _ (reads_workshop rfl rfl)
  obtain ⟨-, hfinished, -, -, -⟩ :=
    (command_ends_and_writes workshop {}).2 _ _ (reads_workshop rfl rfl)
  have hstrayed := hstrayed (List.Pairwise.imp World.apart_of_ne (by decide +kernel))
  have hfiles := hfiles (List.Pairwise.imp World.apart_of_ne (by decide +kernel))
  refine ⟨hunread, hsecret, hstray (by decide +kernel), ?_, ?_, hkept (by decide +kernel), ?_, ?_,
    ?_⟩
  · rw [hstrayed _ List.mem_cons_self _ (by decide +kernel)]
    decide +kernel
  · rw [hstrayed _ (List.mem_cons_of_mem _ (List.mem_cons_of_mem _ List.mem_cons_self)) _
      (by decide +kernel)]
    decide +kernel
  · rw [hfiles _ List.mem_cons_self _ (by decide +kernel)]
    decide +kernel
  · rw [hfiles _ (List.mem_cons_of_mem _ List.mem_cons_self) _ (by decide +kernel)]
    decide +kernel
  · rw [hfinished (by decide +kernel)]
    decide +kernel

end SicXe.CommandLine
