import SicXe.ReadError
import SicXe.Text.Blank
import SicXe.Text.Split

/-!
# SicXe.LineFields

The four fields of a source line, divided by tabs: label, operator, operands and comment.
-/

namespace SicXe

/-- The fields of a source line, trimmed; a field that is empty is not there. -/
structure LineFields where
  label : Option String
  operator : String
  operands : Option String
  comment : Option String
  deriving Repr, DecidableEq

namespace LineFields

/-- A field as it counts: trimmed, and absent if nothing is left. -/
def field? (cs : List Char) : Option String :=
  match Text.trim cs with
  | [] => none
  | trimmed => some (String.ofList trimmed)

/-- The pieces of a line between tabs as its four fields; the comment keeps the tabs in it. -/
def cut (line : List Char) : List Char × List Char × List Char × List Char :=
  match Text.pieces '\t' line with
  | [] => ([], [], [], [])
  | [label] => (label, [], [], [])
  | [label, operator] => (label, operator, [], [])
  | label :: operator :: operands :: comment =>
    (label, operator, operands, ['\t'].intercalate comment)

/-- Read a source line.  A blank line and a line whose label starts with a period hold no
statement; any other line must have an operator. -/
def read (line : String) : Except ReadError (Option LineFields) :=
  if Text.allBlank line.toList then .ok none
  else
    let (label, operator, operands, comment) := cut line.toList
    if (Text.trim label).head? = some '.' then .ok none
    else match field? operator with
      | none => .error .missingOperator
      | some operator => .ok (some ⟨field? label, operator, field? operands, field? comment⟩)

end LineFields

end SicXe
