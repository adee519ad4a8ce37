import Mathlib.Algebra.GroupWithZero.Nat
import Mathlib.Data.List.Induction
import Mathlib.Data.List.Nodup
import SicXe.AddressTable

/-!
# SicXe.Proofs.AddressTables

The theory of address tables: what a lookup finds after names are added, given an address or
placed.

The names of a table stand in the order in which they first came in (`firstOccurrences`).  A name
that is added goes behind the others and hides none of them (`lookup_append`); a new address for
the last name changes the last entry only (`setAddress_concat`).  Placing the pending names leaves
the located ones where they are (`lookup_placeFrom_of_located`) and puts a pending one behind those
that are pending before it (`lookup_placeFrom_of_pending`).
-/

namespace SicXe

/-! ## first occurrences -/

/-- What items have, in the order in which it first occurs. -/
def firstOccurrences [BEq β] (f : α → Option β) (items : List α) : List β :=
  (items.filterMap f).eraseDups

theorem firstOccurrences_concat_of_none [BEq β] {f : α → Option β} {items : List α} {item : α}
    (h : f item = none) : firstOccurrences f (items ++ [item]) = firstOccurrences f items := by
  simp [firstOccurrences, h]

section
variable [BEq β] [LawfulBEq β] {f : α → Option β} {items : List α} {item : α} {value : β}

/-- A value occurs first somewhere exactly if it occurs. -/
theorem mem_firstOccurrences :
    value ∈ firstOccurrences f items ↔ ∃ x ∈ items, f x = some value := by
  rw [firstOccurrences, List.mem_eraseDups, List.mem_filterMap]

theorem eraseDups_concat_of_mem {values : List β} (h : value ∈ values) :
    (values ++ [value]).eraseDups = values.eraseDups := by
  rw [List.eraseDups_append]
  simp [List.removeAll, h]

theorem eraseDups_concat_of_notMem {values : List β} (h : value ∉ values) :
    (values ++ [value]).eraseDups = values.eraseDups ++ [value] := by
  rw [List.eraseDups_append]
  simp [List.removeAll, h, List.eraseDups_cons]

/-- What has occurred before does not occur first again. -/
theorem firstOccurrences_concat_of_mem (h : f item = some value)
    (hold : value ∈ firstOccurrences f items) :
    firstOccurrences f (items ++ [item]) = firstOccurrences f items := by
  have hmem : value ∈ items.filterMap f := by simpa [firstOccurrences] using hold
  simpa [firstOccurrences, h] using eraseDups_concat_of_mem hmem

/-- A value that is new comes last. -/
theorem firstOccurrences_concat_of_notMem (h : f item = some value)
    (hnew : value ∉ firstOccurrences f items) :
    firstOccurrences f (items ++ [item]) = firstOccurrences f items ++ [value] := by
  have hmem : value ∉ items.filterMap f := by simpa [firstOccurrences] using hnew
  simpa [firstOccurrences, h] using eraseDups_concat_of_notMem hmem

/-- Each value occurs first once. -/
theorem nodup_firstOccurrences (f : α → Option β) (items : List α) :
    (firstOccurrences f items).Nodup := by
  induction items using List.reverseRecOn with
  | nil => simp [firstOccurrences]
  | append_singleton items item ih =>
      cases h : f item with
      | none => rwa [firstOccurrences_concat_of_none h]
      | some value =>
          by_cases hmem : value ∈ firstOccurrences f items
          · rwa [firstOccurrences_concat_of_mem h hmem]
          · rw [firstOccurrences_concat_of_notMem h hmem]
            exact List.nodup_append_comm.mp (List.nodup_cons.mpr ⟨hmem, ih⟩)

/-- More items add what occurs first in them. -/
theorem firstOccurrences_append (f : α → Option β) (first second : List α) :
    ∃ more, firstOccurrences f (first ++ second) = firstOccurrences f first ++ more := by
  rw [firstOccurrences, List.filterMap_append, List.eraseDups_append]
  exact ⟨_, rfl⟩

/-- What occurs has a first occurrence. -/
theorem exists_first_of_mem_firstOccurrences (h : value ∈ firstOccurrences f items) :
    ∃ before item after, items = before ++ item :: after ∧ f item = some value ∧
      value ∉ firstOccurrences f before := by
  induction items using List.reverseRecOn with
  | nil => simp [firstOccurrences] at h
  | append_singleton items item ih =>
      by_cases hold : value ∈ firstOccurrences f items
      · obtain ⟨before, first, after, rfl, hfirst⟩ := ih hold
        exact ⟨before, first, after ++ [item], by simp, hfirst⟩
      · obtain ⟨found, hfound, hvalue⟩ := mem_firstOccurrences.mp h
        rcases List.mem_append.mp hfound with hbefore | hlast
        · exact absurd (mem_firstOccurrences.mpr ⟨found, hbefore, hvalue⟩) hold
        · rw [List.mem_singleton.mp hlast] at hvalue
          exact ⟨items, item, [], rfl, hvalue, hold⟩

end

namespace AddressTable

/-! ## names -/

section
variable {table : AddressTable} {name : String}

/-- A table contains the names of its entries. -/
theorem contains_iff : table.contains name = true ↔ name ∈ table.names := by
  simp [contains, names]

theorem contains_eq_false_iff : table.contains name = false ↔ name ∉ table.names := by
  rw [← contains_iff, Bool.not_eq_true]

/-- What is found has a name in the table. -/
theorem mem_names_of_lookup {address : Nat} (h : table.lookup name = some address) :
    name ∈ table.names := by
  obtain ⟨entry, hfound, -⟩ := Option.bind_eq_some_iff.mp h
  have hname := List.find?_some hfound
  rw [← contains_iff, contains, List.any_eq_true]
  exact ⟨entry, List.mem_of_find?_eq_some hfound, hname⟩

/-- The names of a table without pending ones can be looked up. -/
theorem isSome_lookup (hlocated : ∀ entry ∈ table.entries, entry.2.isSome)
    (h : name ∈ table.names) : (table.lookup name).isSome := by
  rw [← contains_iff, contains, List.any_eq_true] at h
  obtain ⟨found, hfound⟩ := Option.isSome_iff_exists.mp (List.find?_isSome.mpr h)
  rw [lookup, hfound]
  exact hlocated found (List.mem_of_find?_eq_some hfound)

theorem mem_names_of_mem_pending (h : name ∈ table.pending) : name ∈ table.names :=
  (List.filter_sublist.map Prod.fst).subset h

end

/-! ## lookups -/

section
variable {first second entries : List (String × Option Nat)} {name : String}

@[simp] theorem lookup_nil (name : String) : lookup ⟨[]⟩ name = none := rfl

theorem lookup_cons (entry : String × Option Nat) (entries : List (String × Option Nat))
    (name : String) :
    lookup ⟨entry :: entries⟩ name = if entry.1 = name then entry.2 else lookup ⟨entries⟩ name := by
  by_cases h : entry.1 = name <;> simp [lookup, h]

/-- **A name is found where it stands first.** -/
theorem lookup_append (first second : List (String × Option Nat)) (name : String) :
    lookup ⟨first ++ second⟩ name =
      if name ∈ first.map Prod.fst then lookup ⟨first⟩ name else lookup ⟨second⟩ name := by
  induction first with
  | nil => simp
  | cons entry rest ih =>
      by_cases h : entry.1 = name
      · simp [lookup_cons, h]
      · have hmem : name ∈ (entry :: rest).map Prod.fst ↔ name ∈ rest.map Prod.fst := by
          simp [Ne.symm h]
        rw [List.cons_append, lookup_cons, lookup_cons, if_neg h, if_neg h, ih]
        simp only [hmem]

/-- Entries behind one of the same name are never found. -/
theorem lookup_append_of_mem (h : name ∈ first.map Prod.fst) :
    lookup ⟨first ++ second⟩ name = lookup ⟨first⟩ name := by
  rw [lookup_append, if_pos h]

/-- The last entry is found, if its name is new. -/
theorem lookup_concat_self {address : Option Nat} (h : name ∉ entries.map Prod.fst) :
    lookup ⟨entries ++ [(name, address)]⟩ name = address := by
  rw [lookup_append, if_neg h, lookup_cons, if_pos rfl]

/-- Where names are different, every entry is found. -/
theorem lookup_of_mem {address : Option Nat} (hnodup : (entries.map Prod.fst).Nodup)
    (h : (name, address) ∈ entries) : lookup ⟨entries⟩ name = address := by
  induction entries with
  | nil => cases h
  | cons entry rest ih =>
      obtain ⟨hnew, hrest⟩ := List.nodup_cons.mp (List.map_cons ▸ hnodup)
      rcases List.mem_cons.mp h with rfl | hlater
      · simp [lookup_cons]
      · have hne : entry.1 ≠ name := fun hsame => hnew (hsame ▸ List.mem_map_of_mem hlater)
        rw [lookup_cons, if_neg hne, ih hrest hlater]

/-- A pending name has no address. -/
theorem lookup_of_mem_pending {table : AddressTable} (hnodup : table.names.Nodup)
    (h : name ∈ table.pending) : table.lookup name = none := by
  obtain ⟨⟨found, address⟩, hmem, rfl⟩ := List.mem_map.mp h
  obtain ⟨hentry, hnone⟩ := List.mem_filter.mp hmem
  obtain rfl : address = none := by simpa using hnone
  exact lookup_of_mem hnodup hentry

/-- A new address for the last name changes the last entry. -/
theorem setAddress_concat {address : Nat} {old : Option Nat} (h : name ∉ entries.map Prod.fst) :
    setAddress name address (entries ++ [(name, old)]) = entries ++ [(name, some address)] := by
  induction entries with
  | nil => simp [setAddress]
  | cons entry rest ih =>
      obtain ⟨hentry, hrest⟩ := not_or.mp (mt List.mem_cons.mpr h)
      rw [List.cons_append, setAddress, if_neg (Ne.symm hentry), ih hrest, List.cons_append]

end

/-! ## placing -/

/- Each lemma follows the recursion of `placeFrom`: an entry that has an address is passed over,
and a pending one takes the address in hand. -/

section
variable {size : String → Nat} {entries : List (String × Option Nat)} {name : String}

/-- Placing literals keeps their names and their order. -/
theorem names_placeFrom (size : String → Nat) (address : Nat)
    (entries : List (String × Option Nat)) :
    (placeFrom size address entries).1.map Prod.fst = entries.map Prod.fst := by
  fun_induction placeFrom size address entries with
  | case1 => rfl
  | case2 address name located rest placed ih => exact congrArg (name :: ·) ih
  | case3 address name rest placed ih => exact congrArg (name :: ·) ih

/-- It leaves none of them without an address. -/
theorem pending_placeFrom (size : String → Nat) (address : Nat)
    (entries : List (String × Option Nat)) :
    pending ⟨(placeFrom size address entries).1⟩ = [] := by
  fun_induction placeFrom size address entries with
  | case1 => rfl
  | case2 address name located rest placed ih => simpa [pending] using ih
  | case3 address name rest placed ih => simpa [pending] using ih

/-- The pending names take their sizes together. -/
theorem snd_placePending (table : AddressTable) (size : String → Nat) (address : Nat) :
    (table.placePending size address).2 = (table.pending.map size).sum := by
  have hend : ∀ entries address, (placeFrom size address entries).2 =
      address + ((pending ⟨entries⟩).map size).sum := by
    intro entries address
    fun_induction placeFrom size address entries with
    | case1 => rfl
    | case2 address name located rest placed ih => simpa [pending] using ih
    | case3 address name rest placed ih => simpa [pending, Nat.add_assoc] using ih
  rw [placePending, hend]
  exact Nat.add_sub_cancel_left ..

/-- **Located names are not moved.** -/
theorem lookup_placeFrom_of_located {address located : Nat}
    (h : lookup ⟨entries⟩ name = some located) :
    lookup ⟨(placeFrom size address entries).1⟩ name = some located := by
  fun_induction placeFrom size address entries with
  | case1 => exact h
  | case2 address other place rest placed ih =>
      rw [lookup_cons] at h ⊢
      by_cases hname : other = name
      · simpa [hname] using h
      · simpa [hname] using ih (by simpa [hname] using h)
  | case3 address other rest placed ih =>
      rw [lookup_cons] at h ⊢
      by_cases hname : other = name
      · simp [hname] at h
      · simpa [hname] using ih (by simpa [hname] using h)

/-- **A pending name is placed behind those that are pending before it.** -/
theorem lookup_placeFrom_of_pending (hnodup : (entries.map Prod.fst).Nodup) {address : Nat}
    {front back : List String} (h : pending ⟨entries⟩ = front ++ name :: back) :
    lookup ⟨(placeFrom size address entries).1⟩ name =
      some (address + (front.map size).sum) := by
  fun_induction placeFrom size address entries generalizing front with
  | case1 => simp [pending] at h
  | case2 address other place rest placed ih =>
      obtain ⟨hnew, hrest⟩ := List.nodup_cons.mp (List.map_cons ▸ hnodup)
      have hpending : pending ⟨rest⟩ = front ++ name :: back := by simpa [pending] using h
      have hmem : name ∈ names ⟨rest⟩ := mem_names_of_mem_pending (by simp [hpending])
      have hne : other ≠ name := fun hsame => hnew (hsame ▸ hmem)
      rw [lookup_cons, if_neg hne]
      exact ih hrest hpending
  | case3 address other rest placed ih =>
      obtain ⟨hnew, hrest⟩ := List.nodup_cons.mp (List.map_cons ▸ hnodup)
      have hpending : other :: pending ⟨rest⟩ = front ++ name :: back := by
        simpa [pending] using h
      cases front with
      | nil =>
          obtain ⟨rfl, -⟩ := List.cons_eq_cons.mp hpending
          simp [lookup_cons]
      | cons head front =>
          obtain ⟨rfl, hlater⟩ := List.cons_eq_cons.mp hpending
          have hmem : name ∈ names ⟨rest⟩ := mem_names_of_mem_pending (by simp [hlater])
          have hne : other ≠ name := fun hsame => hnew (hsame ▸ hmem)
          rw [lookup_cons, if_neg hne, ih hrest hlater]
          simp [Nat.add_assoc]

end

end AddressTable

end SicXe
