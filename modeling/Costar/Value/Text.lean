import Costar.Text.Quoted
import Costar.Value

/-!
# Text of values

A value as it stands in a message, and a value as it stands in quotes or inside another value.
The two differ for texts and for dates only.  Whole numbers are written with all their digits; the
limit `Numeral.digitLimit` is one on what is read.
-/

namespace Costar.Value

/-- Items between brackets; a single one is followed by a comma where `single` says so. -/
def bracketed (left right : String) (single : Bool) (items : List String) : String :=
  left ++ ", ".intercalate items ++ (if single && items.length == 1 then "," else "") ++ right

/-- A constructor's name with its numbers. -/
def constructed (name : String) (fields : List Nat) : String :=
  bracketed (name ++ "(") ")" false (fields.map toString)

mutual

/-- A value as it stands inside another one. -/
def quoted : Value → String
  | .null => "None"
  | .bool b => if b then "True" else "False"
  | .int n => toString n
  | .float x => x.text
  | .text s => Text.quoted s
  | .list items => bracketed "[" "]" false (quotedItems items)
  | .tuple items => bracketed "(" ")" true (quotedItems items)
  | .map entries => bracketed "\x7b" "\x7d" false (quotedEntries entries)
  | .date d => constructed "datetime.date" [d.year, d.month, d.day]
  | .dateTime t =>
    constructed "datetime.datetime" ([t.date.year, t.date.month, t.date.day, t.hour, t.minute] ++
      (if t.second = 0 then [] else [t.second]))
  | .graphDate d => constructed "neo4j.time.Date" [d.year, d.month, d.day]
  | .graphDateTime t =>
    constructed "neo4j.time.DateTime"
      [t.date.year, t.date.month, t.date.day, t.hour, t.minute, t.second, 0]
  | .bytes bs => Text.quotedBytes bs

/-- The texts of the items of a list. -/
def quotedItems : List Value → List String
  | [] => []
  | v :: vs => quoted v :: quotedItems vs

/-- The texts of the entries of a map. -/
def quotedEntries : List (Text × Value) → List String
  | [] => []
  | (k, v) :: es => (Text.quoted k ++ ": " ++ quoted v) :: quotedEntries es

end

/-- A value as it stands in a message. -/
def display : Value → Text
  | .text s => s
  | .date d | .graphDate d => d.text
  | .dateTime t => t.text " "
  | .graphDateTime t => t.text "T" ++ ".000000000"
  | v => v.quoted

end Costar.Value
