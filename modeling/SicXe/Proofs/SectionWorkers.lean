import Mathlib.Data.List.Nodup
import Mathlib.Logic.Relation
import SicXe.Proofs.AssembledSection

/-!
# SicXe.Proofs.SectionWorkers

Sections that are worked on at the same time.

There is a worker for each section.  When it is done it sends its result, with the number of its
section, over a channel that keeps what it was sent in order; nothing is said about which worker
is done first.  `canSend_iff_perm` says what can be in the channel once all are done: the results of
all sections in any order.  Sorting by the number puts them back in the order of the sections,
because no number occurs twice, and so the program does not depend on who was first
(`parallel_eq_sequential`).
-/

namespace SicXe

namespace Program

/-! ## workers and their channel -/

/-- Workers that have not sent their result yet, and the channel they send it over. -/
structure Workers where
  /-- The number and the lines of each section that is still worked on. -/
  busy : List (Nat × List (Nat × String))
  /-- The results in the channel, the one sent first in front. -/
  channel : List (Nat × Section × Journal)

namespace Workers

/-- What a worker sends. -/
def message (registry : Registry) (task : Nat × List (Nat × String)) : Nat × Section × Journal :=
  (task.1, assembleSection registry task.2)

/-- One worker, whichever it is, sends its result and is done. -/
inductive Sends (registry : Registry) : Workers → Workers → Prop
  | send (before after : List (Nat × List (Nat × String))) (task : Nat × List (Nat × String))
      (channel : List (Nat × Section × Journal)) :
      Sends registry ⟨before ++ task :: after, channel⟩
        ⟨before ++ after, channel ++ [message registry task]⟩

/-- A worker for each section, and nothing sent yet. -/
def start (sections : List (List (Nat × String))) : Workers :=
  ⟨sections.zipIdx.map fun (lines, number) => (number, lines), []⟩

/-- The workers of some sections can leave the channel as it is given, all of them done. -/
def CanSend (registry : Registry) (sections : List (List (Nat × String)))
    (channel : List (Nat × Section × Journal)) : Prop :=
  Relation.ReflTransGen (Sends registry) (start sections) ⟨[], channel⟩

/-- What has been sent and what is still to be sent stay the same together. -/
theorem Sends.perm {registry : Registry} {workers next : Workers}
    (h : Sends registry workers next) :
    (next.channel ++ next.busy.map (message registry)).Perm
      (workers.channel ++ workers.busy.map (message registry)) := by
  obtain ⟨before, after, task, channel⟩ := h
  simp only [List.map_append, List.map_cons, List.append_assoc, List.singleton_append]
  exact (List.perm_middle.symm).append_left _

/-- Along a run, what is sent and what is still to be sent stay the same together. -/
theorem perm_of_run {registry : Registry} {workers last : Workers}
    (h : Relation.ReflTransGen (Sends registry) workers last) :
    (last.channel ++ last.busy.map (message registry)).Perm
      (workers.channel ++ workers.busy.map (message registry)) := by
  induction h with
  | refl => exact .refl _
  | tail _ hsends ih => exact hsends.perm.trans ih

/-- Whatever order messages are in, the workers that have them to send can send them so. -/
theorem run_of_perm (registry : Registry) {busy : List (Nat × List (Nat × String))}
    {messages : List (Nat × Section × Journal)}
    (h : messages.Perm (busy.map (message registry)))
    (channel : List (Nat × Section × Journal)) :
    Relation.ReflTransGen (Sends registry) ⟨busy, channel⟩ ⟨[], channel ++ messages⟩ := by
  induction messages generalizing busy channel with
  | nil =>
      have hdone : busy = [] := List.map_eq_nil_iff.mp h.symm.eq_nil
      rw [hdone, List.append_nil]
  | cons first rest ih =>
      obtain ⟨task, hmem, rfl⟩ := List.mem_map.mp (h.mem_iff.mp List.mem_cons_self)
      obtain ⟨before, after, rfl⟩ := List.append_of_mem hmem
      have hrest : rest.Perm ((before ++ after).map (message registry)) := by
        rw [List.map_append, List.map_cons] at h
        rw [List.map_append]
        exact (h.trans List.perm_middle).cons_inv
      have hrun := ih hrest (channel ++ [message registry task])
      rw [List.append_assoc, List.singleton_append] at hrun
      exact hrun.head (.send before after task channel)

/-- At the start everything is still to be sent. -/
theorem map_message_start (registry : Registry) (sections : List (List (Nat × String))) :
    (start sections).busy.map (message registry) = workerResults registry sections := by
  simp only [start, workerResults, List.map_map]
  rfl

/-- **The channel at the end**: the workers can leave in the channel the results of all sections, in
any order, and nothing else. -/
theorem canSend_iff_perm (registry : Registry) (sections : List (List (Nat × String)))
    (channel : List (Nat × Section × Journal)) :
    CanSend registry sections channel ↔ channel.Perm (workerResults registry sections) := by
  rw [← map_message_start]
  constructor
  · intro hrun
    have hperm := perm_of_run hrun
    rw [List.map_nil, List.append_nil] at hperm
    exact hperm
  · intro hperm
    exact run_of_perm registry hperm []

end Workers

/-! ## results in the order of the sections -/

/-- Results with their numbers, in order. -/
def numbered (results : List α) : List (Nat × α) :=
  results.zipIdx.map Prod.swap

theorem map_fst_numbered (results : List α) :
    (numbered results).map Prod.fst = List.range' 0 results.length := by
  rw [numbered, List.map_map, ← List.zipIdx_map_snd]
  rfl

theorem map_snd_numbered (results : List α) : (numbered results).map Prod.snd = results := by
  rw [numbered, List.map_map]
  exact List.zipIdx_map_fst ..

/-- **Sorting undoes any order of arrival**: numbered results come back in the order of their
numbers. -/
theorem inSectionOrder_of_perm {results : List α} {arrivals : List (Nat × α)}
    (h : arrivals.Perm (numbered results)) : inSectionOrder arrivals = results := by
  have hperm := (stableSort_perm (fun first second => first.1 ≤ second.1) arrivals).trans h
  have hnumbers : ((numbered results).map Prod.fst).Pairwise (· < ·) := by
    rw [map_fst_numbered]
    exact List.pairwise_lt_range'
  have hsorted : stableSort (fun first second => first.1 ≤ second.1) arrivals =
      numbered results := by
    refine hperm.eq_of_pairwise ?_ (pairwise_stableSort ?_ ?_ arrivals) ?_
    · intro first second hfirst hsecond hle hge
      exact List.inj_on_of_nodup_map (hnumbers.imp Nat.ne_of_lt) (hperm.mem_iff.mp hfirst) hsecond
        (Nat.le_antisymm (of_decide_eq_true hle) (of_decide_eq_true hge))
    · intro first second
      simpa using Nat.le_total first.1 second.1
    · intro first second third hle hle'
      exact decide_eq_true (Nat.le_trans (of_decide_eq_true hle) (of_decide_eq_true hle'))
    · exact (List.pairwise_map.mp hnumbers).imp fun hlt => decide_eq_true (Nat.le_of_lt hlt)
  rw [inSectionOrder, hsorted, map_snd_numbered]

/-- The results of the workers are those of the sections, each with its number. -/
theorem workerResults_eq (registry : Registry) (sections : List (List (Nat × String))) :
    workerResults registry sections = numbered (sections.map (assembleSection registry)) := by
  simp only [workerResults, numbered, List.map_map, List.zipIdx_map]
  rfl

/-! ## programs -/

/-- The lines of each section of a source text. -/
def sectionLines (source : String) : List (List (Nat × String)) :=
  (cutSections (numberedLines source)).2

/-- The program of a source text whose workers left the given results in the channel. -/
def ofChannel (source : String) (channel : List (Nat × Section × Journal)) : Program :=
  ofResults (outsideSections (cutSections (numberedLines source)).1) (inSectionOrder channel)

/-- In whatever order the results arrive, the program is the same. -/
theorem ofChannel_of_perm {registry : Registry} {source : String}
    {channel : List (Nat × Section × Journal)}
    (h : channel.Perm (workerResults registry (sectionLines source))) :
    ofChannel source channel = assemble registry source := by
  rw [workerResults_eq] at h
  rw [ofChannel, inSectionOrder_of_perm h]
  rfl

/-- **Workers change nothing.**  The workers of a source text can send their results in every order,
and whatever order they send them in, the program is the one that is assembled section after
section: the same sections, the same diagnostics in the same order and the same entry address. -/
theorem parallel_eq_sequential (registry : Registry) (source : String) :
    (∀ channel, Workers.CanSend registry (sectionLines source) channel ↔
      channel.Perm (workerResults registry (sectionLines source))) ∧
    (∀ channel, Workers.CanSend registry (sectionLines source) channel →
      ofChannel source channel = assemble registry source) ∧
    assembleParallel registry source = assemble registry source := by
  refine ⟨Workers.canSend_iff_perm registry (sectionLines source), ?_, ?_⟩
  · intro channel hsent
    exact ofChannel_of_perm ((Workers.canSend_iff_perm ..).mp hsent)
  · exact ofChannel_of_perm (.refl _)

/-- A program of three sections, two of which have something to report. -/
def threeSections : String :=
  "A\tSTART\t0\n\tLDA\tNONE\nB\tCSECT\n\tLDA\t#1\nC\tCSECT\n\tLDA\tNONE\n\tEND\tA\n"

/-- The workers of `threeSections` may be done in the opposite order. -/
theorem parallel_eq_sequential_reversed :
    (sectionLines threeSections).length = 3 ∧
    Workers.CanSend loadRegistry (sectionLines threeSections)
      (workerResults loadRegistry (sectionLines threeSections)).reverse ∧
    ofChannel threeSections
      (workerResults loadRegistry (sectionLines threeSections)).reverse =
        assemble loadRegistry threeSections := by
  obtain ⟨horders, hprogram, -⟩ := parallel_eq_sequential loadRegistry threeSections
  have hsent := (horders _).mpr (List.reverse_perm _)
  exact ⟨by decide +kernel, hsent, hprogram _ hsent⟩

end Program

end SicXe
