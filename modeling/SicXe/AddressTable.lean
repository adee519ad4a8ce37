/-!
# SicXe.AddressTable

Names and their addresses in the order the names came in.  A name whose address is not known
yet is pending.  Symbols and literals of a section are kept in such tables.
-/

namespace SicXe

/-- Names with their addresses, in the order of insertion. -/
structure AddressTable where
  /-- The entries; a pending one has no address. -/
  entries : List (String × Option Nat)
  deriving Repr, DecidableEq

/-- Why a table refuses an operation. -/
inductive TableError where
  /-- The name is already in the table. -/
  | duplicateName (name : String)
  /-- The name is not in the table. -/
  | unknownName (name : String)
  deriving Repr, DecidableEq

namespace TableError

/-- The text of an error. -/
def message : TableError → String
  | duplicateName name => "name `" ++ name ++ "` was already defined"
  | unknownName name => "name `" ++ name ++ "` is not defined"

/-- How an error can be mended, if there is a hint. -/
def help? : TableError → Option String
  | duplicateName _ => some "labels must be unique within a section"
  | unknownName _ => none

end TableError

namespace AddressTable

/-- The table of no name. -/
def empty : AddressTable := ⟨[]⟩

instance : EmptyCollection AddressTable := ⟨empty⟩

instance : Inhabited AddressTable := ⟨empty⟩

/-- The names of a table in order. -/
def names (table : AddressTable) : List String :=
  table.entries.map Prod.fst

/-- How many names a table has. -/
def size (table : AddressTable) : Nat :=
  table.entries.length

/-- Whether a name is in a table, located or pending. -/
def contains (table : AddressTable) (name : String) : Bool :=
  table.entries.any fun entry => entry.1 == name

/-- The address of a located name. -/
def lookup (table : AddressTable) (name : String) : Option Nat :=
  (table.entries.find? fun entry => entry.1 == name).bind Prod.snd

/-- The pending names in order. -/
def pending (table : AddressTable) : List String :=
  (table.entries.filter fun entry => entry.2.isNone).map Prod.fst

/-- The located entries in order. -/
def located (table : AddressTable) : List (String × Nat) :=
  table.entries.filterMap fun entry => entry.2.map (entry.1, ·)

/-- Put a new name behind all others. -/
def add (table : AddressTable) (name : String) (address : Option Nat) :
    Except TableError AddressTable :=
  if table.contains name then .error (.duplicateName name)
  else .ok ⟨table.entries ++ [(name, address)]⟩

/-- Insert a located name. -/
def insert (table : AddressTable) (name : String) (address : Nat) :
    Except TableError AddressTable :=
  table.add name (some address)

/-- Insert a name whose address is not known yet. -/
def declare (table : AddressTable) (name : String) : Except TableError AddressTable :=
  table.add name none

/-- The entries with a new address for one name, which keeps its place. -/
def setAddress (name : String) (address : Nat) :
    List (String × Option Nat) → List (String × Option Nat)
  | [] => []
  | entry :: rest =>
    if entry.1 = name then (name, some address) :: rest
    else entry :: setAddress name address rest

/-- Give a name that is already there a new address. -/
def assign (table : AddressTable) (name : String) (address : Nat) :
    Except TableError AddressTable :=
  if table.contains name then .ok ⟨setAddress name address table.entries⟩
  else .error (.unknownName name)

/-- Locate the pending entries one behind another from `address` on, each taking `size` of its
name; the second component is the address behind the last of them. -/
def placeFrom (size : String → Nat) :
    (address : Nat) → List (String × Option Nat) → List (String × Option Nat) × Nat
  | address, [] => ([], address)
  | address, (name, some located) :: rest =>
    let placed := placeFrom size address rest
    ((name, some located) :: placed.1, placed.2)
  | address, (name, none) :: rest =>
    let placed := placeFrom size (address + size name) rest
    ((name, some address) :: placed.1, placed.2)

/-- Locate every pending name of a table from `address` on, and tell how many bytes they take. -/
def placePending (table : AddressTable) (size : String → Nat) (address : Nat) :
    AddressTable × Nat :=
  let placed := placeFrom size address table.entries
  (⟨placed.1⟩, placed.2 - address)

end AddressTable

end SicXe
