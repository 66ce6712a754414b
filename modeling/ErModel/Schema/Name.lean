import ErModel.Text.Letter
import ErModel.Text.Case

/-!
# Names

How names are made: the first one of a series that is not in use yet, the name of a foreign key
column, and the name under which a column is stored.
-/

namespace ErModel

/-- The least `n` from `start` on whose candidate is not in use. The candidates are distinct, so
one more of them than there are used values is enough, and the search ends by itself. -/
def firstUnused {α : Type} [DecidableEq α] (used : List α) (candidate : Nat → α)
    (start : Nat) : Nat :=
  ((List.range' start used.length).find? fun n => candidate n ∉ used).getD (start + used.length)

/-- `base` if it is not in use, and otherwise the first of `base2`, `base3`, … that is not. -/
def freeName (used : List String) (base : String) : String :=
  if base ∈ used then base ++ toString (firstUnused used (fun n => base ++ toString n) 2) else base

/-- The name of a foreign key column towards a table: `User` gives `userId`. -/
def foreignKeyName (table : String) : String :=
  let name := match table.toList with
    | [] => []
    | first :: rest => Text.small first ++ rest
  String.ofList (name.filter (fun c => !Text.isBlank c)) ++ "Id"

/-- The characters of a stored name from the rest of a name, when `written` are the ones before
them, the last first. -/
def snakeOnto (written : List Char) : List Char → List Char
  | [] => written
  | c :: rest =>
    if Text.isCapital c then
      let gap := if written.isEmpty || written.head? = some '_' then written else '_' :: written
      snakeOnto ((Text.small c).reverse ++ gap) rest
    else if c = ' ' || c = '-' then snakeOnto ('_' :: written) rest
    else snakeOnto (c :: written) rest

/-- The name under which a column is stored: `userId` gives `user_id`. -/
def snakeCase (name : String) : String := String.ofList (snakeOnto [] name.toList).reverse

end ErModel
