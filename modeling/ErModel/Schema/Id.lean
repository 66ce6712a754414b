import ErModel.Schema.Code

/-!
# Identities

Tables, columns and joins are known by text that never changes while names do. Tables and columns
get new ids from a supply. The id of a join is made from the ids of the tables it was declared
between, so declaring the same relationship twice names the same join.
-/

namespace ErModel

/-- The identity of a table. -/
structure TableId where
  text : String
  deriving DecidableEq, Inhabited

/-- The identity of a column. -/
structure ColumnId where
  text : String
  deriving DecidableEq, Inhabited

/-- The identity of a join. -/
structure JoinId where
  text : String
  deriving DecidableEq, Inhabited

namespace JoinId

/-- The id of the relationship declared from `source` to `target`. -/
def between (source target : TableId) : JoinId := ⟨source.text ++ "->" ++ target.text⟩

/-- The id of the `n`-th further relationship between the same tables in the same direction. -/
def nth (source target : TableId) : Nat → JoinId
  | 0 => between source target
  | n + 1 => ⟨source.text ++ "->" ++ target.text ++ "#" ++ toString (n + 1)⟩

/-- What stands before and behind the first arrow of a text. -/
def splitArrow : List Char → Option (List Char × List Char)
  | [] => none
  | '-' :: '>' :: rest => some ([], rest)
  | c :: rest => (splitArrow rest).map fun (before, behind) => (c :: before, behind)

/-- The tables that an id names, if it has an arrow: what stands before the first arrow, and what
stands behind it up to a number sign. -/
def endpoints? (id : JoinId) : Option (TableId × TableId) :=
  (splitArrow id.text.toList).map fun (source, target) =>
    (⟨String.ofList source⟩, ⟨String.ofList (target.takeWhile (· ≠ '#'))⟩)

end JoinId

/-- A source of new ids. They may start alike, and differ in their codes. A supply brings its own codes,
and what is said of all supplies is said of any codes that never come twice.

An operation that makes things takes its ids from the front of a supply, in places that it fixes,
and its caller goes on with a supply that skips them. -/
structure IdSupply where
  stem : String
  next : Nat
  [codes : IdCodes]

namespace IdSupply

/-- The id in place `n`. -/
def text (supply : IdSupply) (n : Nat) : String :=
  supply.stem ++ supply.codes.code (supply.next + n)

/-- The id in place `n`, for a table. -/
def tableId (supply : IdSupply) (n : Nat) : TableId := ⟨supply.text n⟩

/-- The id in place `n`, for a column. -/
def columnId (supply : IdSupply) (n : Nat) : ColumnId := ⟨supply.text n⟩

/-- The supply without its first `n` ids. -/
def skip (supply : IdSupply) (n : Nat) : IdSupply := { supply with next := supply.next + n }

@[simp] theorem text_skip (supply : IdSupply) (m n : Nat) :
    (supply.skip m).text n = supply.text (m + n) :=
  congrArg (fun place => supply.stem ++ supply.codes.code place) (Nat.add_assoc ..)

end IdSupply

end ErModel
