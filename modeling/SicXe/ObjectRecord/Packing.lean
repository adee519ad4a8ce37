import SicXe.ObjectRecord

/-!
# SicXe.ObjectRecord.Packing

The records of a section.

Object code is packed into text records of at most thirty bytes.  Code longer than that is cut
into chunks of thirty bytes; a chunk joins the open record if it follows it without a gap and
there is room for all of it.  A record is closed by a statement with a record of its own, by a
statement that takes room without code, and by the start of a literal pool.
-/

namespace SicXe

namespace ObjectRecord

/-- How many bytes of object code a text record can hold. -/
def textCapacity : Nat := 30

/-- Object code cut into chunks of at most `capacity` bytes, each with its address.  `fuel`
bounds the number of chunks. -/
def chunksFrom (capacity : Nat) :
    (fuel : Nat) → (address : Nat) → List UInt8 → List (Nat × List UInt8)
  | 0, _, _ => []
  | _, _, [] => []
  | fuel + 1, address, code =>
    (address, code.take capacity) ::
      chunksFrom capacity fuel (address + capacity) (code.drop capacity)

/-- Object code at an address, cut into chunks that fit a text record. -/
def chunks (address : Nat) (code : List UInt8) : List (Nat × List UInt8) :=
  chunksFrom textCapacity code.length address code

/-- The text record in hand: where it starts and what it holds. -/
abbrev OpenText := Option (Nat × List UInt8)

/-- Close the text record in hand. -/
def close : OpenText → List ObjectRecord
  | none => []
  | some (start, code) => [.text start code]

/-- Whether a chunk can join the text record in hand. -/
def joins (start : Nat) (code : List UInt8) (chunk : Nat × List UInt8) : Bool :=
  start + code.length = chunk.1 && code.length + chunk.2.length ≤ textCapacity

/-- Put one chunk into the text record in hand, or close that and open another. -/
def pushChunk (current : OpenText) (chunk : Nat × List UInt8) :
    List ObjectRecord × OpenText :=
  match current with
  | none => ([], some chunk)
  | some (start, code) =>
    if joins start code chunk then ([], some (start, code ++ chunk.2))
    else ([.text start code], some chunk)

/-- Put chunks into text records one after another. -/
def pushChunks : OpenText → List (Nat × List UInt8) → List ObjectRecord × OpenText
  | current, [] => ([], current)
  | current, chunk :: rest =>
    let next := pushChunk current chunk
    let last := pushChunks next.2 rest
    (next.1 ++ last.1, last.2)

/-- Put a statement into the records: the records it completes, and the text record in hand
after it. -/
def pushStatement (length : Nat) (current : OpenText) (statement : Statement) :
    List ObjectRecord × OpenText :=
  match statement.contribution with
  | some (.header name _) => (close current ++ [.header name length], none)
  | some (.define symbols) => (close current ++ [.define symbols], none)
  | some (.refer symbols) => (close current ++ [.refer symbols], none)
  | contribution =>
    if contribution = some .text ∧ statement.code ≠ [] then
      let code := chunks statement.address statement.code
      if statement.directive? = some .ltorg then
        let pushed := pushChunks none code
        (close current ++ pushed.1, pushed.2)
      else pushChunks current code
    else if statement.length > 0 then (close current, none)
    else ([], current)

/-- Put statements into records one after another; `length` is that of their section. -/
def pushStatements (length : Nat) : OpenText → List Statement → List ObjectRecord
  | current, [] => close current
  | current, statement :: rest =>
    let next := pushStatement length current statement
    next.1 ++ pushStatements length next.2 rest

/-- The records of a section; only the first section has an entry address. -/
def ofSection (sect : Section) (entry : Option Nat) : List ObjectRecord :=
  pushStatements sect.length none sect.statements ++
    sect.relocations.map .modification ++ [.endSection entry]

end ObjectRecord

end SicXe
