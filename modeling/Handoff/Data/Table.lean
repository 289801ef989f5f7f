/-!
Tables that keep the order in which their keys were first entered.
-/

namespace Handoff

/-- A table: keys with values, in the order of first entry. -/
abbrev Table (κ α : Type) := List (κ × α)

namespace Table

variable {κ α : Type} [BEq κ]

/-- Enters a value. A key that is already there keeps its place and takes the new value. -/
def put (table : Table κ α) (key : κ) (value : α) : Table κ α :=
  match table with
  | [] => [(key, value)]
  | (k, v) :: rest => if k == key then (k, value) :: rest else (k, v) :: put rest key value

/-- The table of a list of entries, later values replacing earlier ones. -/
def ofEntries (entries : List (κ × α)) : Table κ α :=
  entries.foldl (fun table entry => table.put entry.1 entry.2) []

end Table

/-- The distinct elements of a list in the order of first occurrence. -/
def distinct {α : Type} [BEq α] (items : List α) : List α :=
  items.foldl (fun seen item => if seen.contains item then seen else seen ++ [item]) []

end Handoff
