import ErModel.Schema.Basic

/-!
# The canvas

Where tables are drawn. Positions belong to the picture and not to the schema, so they are kept
apart from it; a table may have none, and then it is put on a diagonal by its place in the schema.
-/

namespace ErModel

/-- A point of the canvas. -/
structure Position where
  x : Binary64
  y : Binary64
  deriving DecidableEq

/-- The `index`-th place on the diagonal, places being `step` apart. -/
def Position.diagonal (index : Nat) (step : Binary64) : Position :=
  let d := (Binary64.ofNat (index + 1)).mul step
  ⟨d, d⟩

/-- Positions of tables, at most one for each. -/
structure Canvas where
  places : List (TableId × Position)
  deriving DecidableEq

namespace Canvas

/-- No table has a position. -/
def empty : Canvas := ⟨[]⟩

/-- The position of a table, if it has one. -/
def position? (canvas : Canvas) (table : TableId) : Option Position := canvas.places.lookup table

/-- Gives a table a position in place of the one it has. -/
def place (canvas : Canvas) (table : TableId) (position : Position) : Canvas :=
  ⟨canvas.places.filter (·.1 ≠ table) ++ [(table, position)]⟩

/-- Forgets the positions of tables that are not in the schema. -/
def retain (canvas : Canvas) (schema : Schema) : Canvas :=
  ⟨canvas.places.filter fun (table, _) => (schema.table? table).isSome⟩

/-- How many tables have a position. -/
def size (canvas : Canvas) : Nat := canvas.places.length

/-- The position of a table, or the place on the diagonal for the `index`-th table. -/
def positionOr (canvas : Canvas) (table : TableId) (index : Nat) (step : Binary64) : Position :=
  (canvas.position? table).getD (.diagonal index step)

/-- The canvas with a position for every table of a schema and for no other. -/
def arranged (canvas : Canvas) (schema : Schema) (step : Binary64) : Canvas :=
  ⟨schema.tables.mapIdx fun i table => (table.id, canvas.positionOr table.id i step)⟩

end Canvas

end ErModel
