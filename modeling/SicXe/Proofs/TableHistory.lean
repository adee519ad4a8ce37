import SicXe.Proofs.AddressTables

/-!
# SicXe.Proofs.TableHistory

What a table holds after any calls that insert, declare and assign names.

A call that is refused leaves the table as it is, so only the calls that succeeded count.  They tell
all of the table (`History.Tells`): which names it has and in which order, the address of each, and
which are pending.  The relation holds of the new table and is kept by every call that succeeds
(`Tells.keep`, one case for each kind of call), and so it holds after every sequence of calls
(`tells_ofCalls`).  `calls_tell_the_table` puts it into the words of the table's own operations.
-/

namespace SicXe

namespace AddressTable

/-! ## new addresses -/

section
variable {entries : List (String × Option Nat)} {name : String} {address : Nat}

/-- A new address leaves every name in its place. -/
@[simp] theorem map_fst_setAddress (name : String) (address : Nat)
    (entries : List (String × Option Nat)) :
    (setAddress name address entries).map Prod.fst = entries.map Prod.fst := by
  induction entries with
  | nil => rfl
  | cons entry rest ih =>
      by_cases h : entry.1 = name
      · simp [setAddress, h]
      · simp [setAddress, h, ih]

/-- **A new address is found under its name**, and under no other. -/
theorem lookup_setAddress (h : name ∈ entries.map Prod.fst) (other : String) :
    lookup ⟨setAddress name address entries⟩ other =
      if name = other then some address else lookup ⟨entries⟩ other := by
  induction entries with
  | nil => simp at h
  | cons entry rest ih =>
      by_cases hname : entry.1 = name
      · by_cases hother : name = other <;> simp [setAddress, lookup_cons, hname, hother]
      · have hrest : name ∈ rest.map Prod.fst := by simpa [Ne.symm hname] using h
        rw [setAddress, if_neg hname, lookup_cons, lookup_cons, ih hrest]
        by_cases hother : entry.1 = other
        · simp [hother, show name ≠ other from fun hsame => hname (hother.trans hsame.symm)]
        · simp [hother]

/-- A name that is given an address is no longer pending. -/
theorem pending_setAddress (hnodup : (entries.map Prod.fst).Nodup) :
    pending ⟨setAddress name address entries⟩ =
      (pending ⟨entries⟩).filter fun other => decide (other ≠ name) := by
  induction entries with
  | nil => rfl
  | cons entry rest ih =>
      obtain ⟨hnew, hrest⟩ := List.nodup_cons.mp (List.map_cons ▸ hnodup)
      by_cases hname : entry.1 = name
      · -- The name does not stand in the rest, so nothing is taken away there.
        have hkept : ∀ other ∈ pending ⟨rest⟩, decide (other ≠ name) = true := by
          intro other hother
          have hmem : other ∈ rest.map Prod.fst := mem_names_of_mem_pending hother
          exact decide_eq_true fun hsame => hnew (hname ▸ hsame ▸ hmem)
        have hsame := List.filter_eq_self.mpr hkept
        cases hentry : entry.2 <;>
          simpa [pending, setAddress, hname, hentry] using hsame.symm
      · have hih := ih hrest
        cases hentry : entry.2 <;>
          simpa [pending, setAddress, hname, hentry] using hih

end

/-- The entries of a table are its names with what a lookup finds under them. -/
theorem entries_eq {table : AddressTable} (hnodup : table.names.Nodup) :
    table.entries = table.names.map fun name => (name, table.lookup name) := by
  rw [names, List.map_map]
  refine (List.map_id table.entries).symm.trans (List.map_congr_left fun entry hentry => ?_)
  simp [lookup_of_mem hnodup (show (entry.1, entry.2) ∈ table.entries from hentry)]

/-! ## refusals -/

section
variable {table : AddressTable} {name : String}

/-- A name is added exactly if it is new. -/
theorem add_eq_ok_iff {address : Option Nat} {next : AddressTable} :
    table.add name address = .ok next ↔
      name ∉ table.names ∧ next = ⟨table.entries ++ [(name, address)]⟩ := by
  unfold add
  split
  · next h => simp [contains_iff.mp h]
  · next h => simp [mt contains_iff.mpr h, eq_comm]

theorem add_eq_error_iff {address : Option Nat} {error : TableError} :
    table.add name address = .error error ↔
      name ∈ table.names ∧ error = .duplicateName name := by
  unfold add
  split
  · next h => simp [contains_iff.mp h, eq_comm]
  · next h => simp [mt contains_iff.mpr h]

/-- A name is assigned an address exactly if it is there. -/
theorem assign_eq_ok_iff {address : Nat} {next : AddressTable} :
    table.assign name address = .ok next ↔
      name ∈ table.names ∧ next = ⟨setAddress name address table.entries⟩ := by
  unfold assign
  split
  · next h => simp [contains_iff.mp h, eq_comm]
  · next h => simp [mt contains_iff.mpr h]

theorem assign_eq_error_iff {address : Nat} {error : TableError} :
    table.assign name address = .error error ↔
      name ∉ table.names ∧ error = .unknownName name := by
  unfold assign
  split
  · next h => simp [contains_iff.mp h]
  · next h => simp [mt contains_iff.mpr h, eq_comm]

end

/-! ## calls -/

/-- A call that may change a table. -/
inductive Call where
  /-- Insert a located name. -/
  | insert (name : String) (address : Nat)
  /-- Insert a name whose address is not known yet. -/
  | declare (name : String)
  /-- Give a name that is already there a new address. -/
  | assign (name : String) (address : Nat)
  deriving Repr, DecidableEq

namespace Call

/-- The name a call is about. -/
def name : Call → String
  | insert name _ | declare name | assign name _ => name

/-- The name that a call puts into a table. -/
def enters? : Call → Option String
  | insert name _ | declare name => some name
  | assign .. => none

/-- The name that a call puts into a table without an address. -/
def declares? : Call → Option String
  | declare name => some name
  | _ => none

/-- The address that a call gives to a name. -/
def gives? (name : String) : Call → Option Nat
  | insert other address | assign other address => if other = name then some address else none
  | declare _ => none

/-- Whether a call assigns a new address to a name. -/
def assigns (name : String) : Call → Bool
  | assign other _ => other == name
  | _ => false

/-- What a call on a table comes to. -/
def on (table : AddressTable) : Call → Except TableError AddressTable
  | insert name address => table.insert name address
  | declare name => table.declare name
  | assign name address => table.assign name address

end Call

/-- A table and the calls that made it. -/
structure History where
  table : AddressTable
  /-- The calls that succeeded, the first one in front. -/
  done : List Call

namespace History

/-- Make one more call.  A call that is refused gives no new table, and the old one stays. -/
def make (history : History) (call : Call) : History :=
  match call.on history.table with
  | .ok table => ⟨table, history.done ++ [call]⟩
  | .error _ => history

/-- A new table and the calls made on it one after another. -/
def ofCalls (calls : List Call) : History :=
  calls.foldl make ⟨∅, []⟩

/-- The address that the latest of the calls gives to a name. -/
def latest (done : List Call) (name : String) : Option Nat :=
  done.reverse.findSome? (Call.gives? name)

@[simp] theorem latest_concat (done : List Call) (call : Call) (name : String) :
    latest (done ++ [call]) name = (call.gives? name).or (latest done name) := by
  simp [latest, List.findSome?_cons]
  cases call.gives? name <;> rfl

/-- Successful calls tell what is in a table. -/
structure Tells (done : List Call) (table : AddressTable) : Prop where
  /-- Every call was about a name that is there. -/
  known : ∀ call ∈ done, call.name ∈ table.names
  nodup : table.names.Nodup
  names : table.names = done.filterMap Call.enters?
  lookup : ∀ name, table.lookup name = latest done name
  pending : table.pending =
    (done.filterMap Call.declares?).filter fun name => !done.any (Call.assigns name)

/-! ## one call -/

section
variable {done : List Call} {table : AddressTable} {name : String}

theorem Tells.not_assigns (h : Tells done table) (hnew : name ∉ table.names) :
    done.any (Call.assigns name) = false := by
  rw [List.any_eq_false]
  intro call hcall hassigns
  cases call with
  | assign other address =>
      have hother : other = name := by simpa [Call.assigns] using hassigns
      exact hnew (hother ▸ h.known _ hcall)
  | _ => cases hassigns

/-- A new name, located or pending, goes behind the others. -/
theorem Tells.add (h : Tells done table) (hnew : name ∉ table.names) {call : Call}
    {address : Option Nat} (hname : call.name = name) (henters : call.enters? = some name)
    (hgives : ∀ other, call.gives? other = if name = other then address else none)
    (hdeclares : call.declares? = if address = none then some name else none)
    (hassigns : ∀ other, call.assigns other = false) :
    Tells (done ++ [call]) ⟨table.entries ++ [(name, address)]⟩ := by
  have hnames : (⟨table.entries ++ [(name, address)]⟩ : AddressTable).names =
      table.names ++ [name] := by simp [AddressTable.names]
  refine ⟨?_, ?_, ?_, ?_, ?_⟩
  · intro other hother
    rw [hnames, List.mem_append]
    rcases List.mem_append.mp hother with hold | hlast
    · exact Or.inl (h.known other hold)
    · exact Or.inr (by simp [List.mem_singleton.mp hlast, hname])
  · rw [hnames]
    exact List.nodup_append_comm.mp (List.nodup_cons.mpr ⟨hnew, h.nodup⟩)
  · simp [hnames, h.names, henters]
  · intro other
    rw [latest_concat, hgives, ← h.lookup]
    by_cases hother : name = other
    · subst hother
      have hnone : table.lookup name = none :=
        Option.eq_none_iff_forall_ne_some.mpr fun found hfound => hnew (mem_names_of_lookup hfound)
      rw [lookup_concat_self hnew, hnone]
      simp
    · rw [lookup_append]
      split
      · simp
      · next hmem =>
          have hnone : table.lookup other = none := Option.eq_none_iff_forall_ne_some.mpr
            fun found hfound => hmem (mem_names_of_lookup hfound)
          simp [lookup_cons, hother, hnone]
  · have hpending : (⟨table.entries ++ [(name, address)]⟩ : AddressTable).pending =
        table.pending ++ (if address = none then [name] else []) := by
      cases address <;> simp [AddressTable.pending]
    rw [hpending, h.pending]
    cases address <;> simp [hdeclares, hassigns, h.not_assigns hnew]

/-- A new address changes what is found under its name, and takes the name from the pending ones. -/
theorem Tells.assign (h : Tells done table) (hname : name ∈ table.names) (address : Nat) :
    Tells (done ++ [.assign name address]) ⟨setAddress name address table.entries⟩ := by
  have hnames : (⟨setAddress name address table.entries⟩ : AddressTable).names = table.names :=
    map_fst_setAddress ..
  refine ⟨?_, ?_, ?_, ?_, ?_⟩
  · intro call hcall
    rw [hnames]
    rcases List.mem_append.mp hcall with hold | hlast
    · exact h.known call hold
    · rwa [List.mem_singleton.mp hlast]
  · rw [hnames]
    exact h.nodup
  · simp [hnames, h.names, Call.enters?]
  · intro other
    rw [lookup_setAddress hname, latest_concat, ← h.lookup, Call.gives?]
    split <;> rfl
  · have hdeclared : (done ++ [Call.assign name address]).filterMap Call.declares? =
        done.filterMap Call.declares? := by simp [List.filterMap_append, Call.declares?]
    have hpending : AddressTable.pending ⟨table.entries⟩ = _ := h.pending
    rw [pending_setAddress h.nodup, hpending, hdeclared, List.filter_filter]
    refine List.filter_congr fun other _ => ?_
    by_cases hother : name = other
    · simp [Call.assigns, hother]
    · simp [Call.assigns, hother, Ne.symm hother]

/-- **A call that succeeds keeps the account**: it adds to it what it did to the table. -/
theorem Tells.keep (h : Tells done table) {call : Call} {next : AddressTable}
    (hcall : call.on table = .ok next) : Tells (done ++ [call]) next := by
  cases call with
  | insert name address =>
      obtain ⟨hnew, rfl⟩ := add_eq_ok_iff.mp hcall
      exact h.add hnew rfl rfl (fun other => rfl) rfl (fun other => rfl)
  | declare name =>
      obtain ⟨hnew, rfl⟩ := add_eq_ok_iff.mp hcall
      exact h.add hnew rfl rfl (fun other => by simp [Call.gives?]) rfl (fun other => rfl)
  | assign name address =>
      obtain ⟨hname, rfl⟩ := assign_eq_ok_iff.mp hcall
      exact h.assign hname address

end

/-! ## all calls -/

theorem make_of_error {history : History} {call : Call} {error : TableError}
    (h : call.on history.table = .error error) : history.make call = history := by
  rw [make, h]

theorem ofCalls_concat (calls : List Call) (call : Call) :
    ofCalls (calls ++ [call]) = (ofCalls calls).make call := by
  simp [ofCalls]

/-- **Successful calls tell what is in the table**, after any calls whatsoever. -/
theorem tells_ofCalls (calls : List Call) : Tells (ofCalls calls).done (ofCalls calls).table := by
  induction calls using List.reverseRecOn with
  | nil => exact ⟨by simp [ofCalls], .nil, rfl, fun name => rfl, rfl⟩
  | append_singleton calls call ih =>
      rw [ofCalls_concat, make]
      split
      · next table hcall => exact ih.keep hcall
      · exact ih

end History

/-- **Calls tell the table.**  Whatever calls are made on a new table: its names are different and
stand in the order in which a call that succeeded put them there, and assigning an address moves
none of them; a lookup finds the address that the latest successful call gave to the name, and
nothing if there is none; the pending names are the declared ones that were never assigned an
address, in the same order.  A name is refused as a duplicate exactly if it is there, it is unknown
to an assignment exactly if it is not, there is no other refusal, and a refused call changes
nothing. -/
theorem calls_tell_the_table (calls : List Call) :
    let done := (History.ofCalls calls).done
    let table := (History.ofCalls calls).table
    table.names.Nodup ∧ table.names = done.filterMap Call.enters? ∧
    table.entries = table.names.map (fun name => (name, table.lookup name)) ∧
    (∀ name address, (History.ofCalls (calls ++ [.assign name address])).table.names =
      table.names) ∧
    (∀ name, table.lookup name = done.reverse.findSome? (Call.gives? name)) ∧
    table.pending =
      (done.filterMap Call.declares?).filter (fun name => !done.any (Call.assigns name)) ∧
    (∀ name address error, table.insert name address = .error error ↔
      name ∈ table.names ∧ error = .duplicateName name) ∧
    (∀ name error, table.declare name = .error error ↔
      name ∈ table.names ∧ error = .duplicateName name) ∧
    (∀ name address error, table.assign name address = .error error ↔
      name ∉ table.names ∧ error = .unknownName name) ∧
    ∀ call error, call.on table = .error error →
      (History.ofCalls (calls ++ [call])).table = table := by
  intro done table
  have htells := History.tells_ofCalls calls
  refine ⟨htells.nodup, htells.names, entries_eq htells.nodup, ?_, htells.lookup, htells.pending,
    fun _ _ _ => add_eq_error_iff, fun _ _ => add_eq_error_iff, fun _ _ _ => assign_eq_error_iff,
    ?_⟩
  · -- An assignment that succeeds enters no name, and one that fails does nothing.
    intro name address
    have hnext := (History.tells_ofCalls (calls ++ [.assign name address])).names
    rw [hnext, History.ofCalls_concat, History.make]
    split
    · simp [htells.names, Call.enters?, table]
    · exact htells.names.symm
  · intro call error hcall
    rw [History.ofCalls_concat, History.make_of_error hcall]

/-- An assignment may come too early, and a name may be declared after it. -/
example :
    let history := History.ofCalls [.assign "=3" 9, .declare "=3", .insert "A" 6, .declare "=5",
      .insert "A" 7, .assign "=5" 12, .assign "A" 8]
    history.table.entries = [("=3", none), ("A", some 8), ("=5", some 12)] ∧
      history.table.pending = ["=3"] := by
  decide

end AddressTable

end SicXe
