/-!
# SicXe.Text.Split

Cutting a text at a separator, and cutting it into lines.
-/

namespace SicXe.Text

/-- The pieces of a text between the occurrences of a separator: one more than there are
separators. -/
def pieces (separator : Char) (cs : List Char) : List (List Char) :=
  cs.foldr
    (fun c rest =>
      if c = separator then [] :: rest
      else match rest with
        | [] => [[c]]
        | piece :: more => (c :: piece) :: more)
    [[]]

/-- A line without the carriage return that stands right before its line feed. -/
def dropReturn (line : List Char) : List Char :=
  if line.getLast? = some '\r' then line.dropLast else line

/-- The lines of a text whose pieces between line feeds are given.  All but the last piece are
ended by a line feed; the last one is a line only if it holds something. -/
def linesOfPieces : List (List Char) → List (List Char)
  | [] => []
  | [last] => if last = [] then [] else [last]
  | piece :: more => dropReturn piece :: linesOfPieces more

/-- The lines of a text, ended by a line feed or by a carriage return and a line feed. -/
def lines (text : String) : List String :=
  (linesOfPieces (pieces '\n' text.toList)).map String.ofList

end SicXe.Text
