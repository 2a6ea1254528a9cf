import ShejaneRuntime.Lib.Paging
import Mathlib.Data.List.Dedup

/-!
# Repairing a table

Rows numbered by the place they take in an order, and rows inserted where
nothing stands in their way. A row's place is the number of rows up to it, so
places follow the order and are distinct; rows that were inserted once are in
the way of being inserted again.
-/

namespace ShejaneRuntime.Lib

variable {α κ ι : Type}

/-! ## Places in an order -/

section Places

variable [LinearOrder κ] {key : α → κ}

/-- The number of rows up to `x` in the order of their keys. -/
def place (key : α → κ) (rows : List α) (x : α) : ℕ :=
  rows.countP fun y ↦ decide (key y ≤ key x)

variable [DecidableEq ι] {id : α → ι}

end Places

/-! ## Inserting what is missing -/

section Inserting

variable {conflict : α → α → Bool}

/-- `INSERT OR IGNORE`: a row is left out when it conflicts with one that is
there. -/
def insertOrIgnore (conflict : α → α → Bool) (table rows : List α) : List α :=
  rows.foldl (fun table row ↦ if table.any (conflict row) then table else table ++ [row]) table

@[simp] theorem insertOrIgnore_nil (table : List α) : insertOrIgnore conflict table [] = table :=
  rfl

end Inserting

end ShejaneRuntime.Lib
