import ErModel.Schema.Table

/-!
# Schemas

A schema is a list of tables. A join is stored where it is used, on a column or among the joins
of a table, so most questions about joins are asked through `owningJoins`: one entry for every
join, with the table that holds it and the column that carries it.
-/

namespace ErModel

/-- The complete relational state at one point in time. -/
structure Schema where
  tables : List Table
  deriving DecidableEq

/-- The owning record of a join, and where it is. -/
structure OwnedJoin where
  holder : Table
  /-- The foreign key column that carries the join; there is none while it is pending. -/
  column : Option Column
  join : Join
  deriving DecidableEq

/-- Whether the join has a foreign key column. -/
def OwnedJoin.isConfigured (owned : OwnedJoin) : Bool := owned.column.isSome

/-- Applies `f` to the first element that satisfies `p`. -/
def modifyFirst {α : Type} (p : α → Bool) (f : α → α) : List α → List α
  | [] => []
  | x :: rest => if p x then f x :: rest else x :: modifyFirst p f rest

@[simp] theorem length_modifyFirst {α : Type} (p : α → Bool) (f : α → α) (xs : List α) :
    (modifyFirst p f xs).length = xs.length := by
  induction xs with
  | nil => rfl
  | cons x rest ih => by_cases h : p x <;> simp [modifyFirst, h, ih]

theorem map_modifyFirst {α β : Type} {p : α → Bool} {f : α → α} {g : α → β}
    (hg : ∀ x, g (f x) = g x) (xs : List α) : (modifyFirst p f xs).map g = xs.map g := by
  induction xs with
  | nil => rfl
  | cons x rest ih => by_cases h : p x <;> simp [modifyFirst, h, ih, hg]

/-- The joins that a table owns: those its columns carry, and then the pending ones. -/
def Table.ownedJoins (table : Table) : List OwnedJoin :=
  table.columns.filterMap (fun c => c.foreignKey.map fun join => ⟨table, some c, join⟩) ++
    table.pendingJoins.map fun join => ⟨table, none, join⟩

namespace Schema

/-- A schema without tables. -/
def empty : Schema := ⟨[]⟩

/-- The table with this id. -/
def table? (schema : Schema) (id : TableId) : Option Table := schema.tables.find? (·.id = id)

/-- The table of this name. -/
def tableNamed? (schema : Schema) (name : String) : Option Table :=
  schema.tables.find? (·.name = name)

/-- Changes the table with this id. -/
def modifyTable (schema : Schema) (id : TableId) (f : Table → Table) : Schema :=
  ⟨modifyFirst (·.id = id) f schema.tables⟩

/-- Changes every table. -/
def mapTables (schema : Schema) (f : Table → Table) : Schema := ⟨schema.tables.map f⟩

/-- Appends a table. -/
def append (schema : Schema) (table : Table) : Schema := ⟨schema.tables ++ [table]⟩

/-- `base`, or with the first number that makes it a new table name. -/
def freeTableName (schema : Schema) (base : String) : String :=
  freeName (schema.tables.map (·.name)) base

/-- Every owning record, table by table. -/
def owningJoins (schema : Schema) : List OwnedJoin := schema.tables.flatMap (·.ownedJoins)

/-- The foreign key column that carries a join, and its table. -/
def foreignKey? (schema : Schema) (join : JoinId) : Option (Table × Column) :=
  schema.tables.findSome? fun table =>
    (table.columns.find? (·.carries join)).map fun column => (table, column)

/-- The pending record of a join, and the table that declares it. -/
def pending? (schema : Schema) (join : JoinId) : Option (Table × Join) :=
  schema.tables.findSome? fun table =>
    (table.joins.find? fun j => j.id = join && j.source = table.id).map fun j => (table, j)

/-- The mirrors of a join, and the tables that hold them. -/
def mirrors (schema : Schema) (join : JoinId) : List (Table × Join) :=
  schema.tables.flatMap fun table =>
    (table.joins.filter fun j => j.id = join && j.source ≠ table.id).map fun j => (table, j)

/-- Whether the join has an owning record. -/
def containsJoin (schema : Schema) (join : JoinId) : Bool :=
  schema.owningJoins.any (·.join.id = join)

/-- The ids of the joins with the table at either end, each once. -/
def joinsTouching (schema : Schema) (table : TableId) : List JoinId :=
  let owned := schema.owningJoins.filter fun o =>
    o.holder.id = table || o.join.peer? = some table
  let held := ((schema.table? table).map (·.joins)).getD []
  (owned.map (·.join.id) ++ held.map (·.id)).eraseDups

/-- Equality of schemas, numbers compared by value. -/
def equal (a b : Schema) : Bool :=
  a.tables.length = b.tables.length && (a.tables.zip b.tables).all fun (x, y) => x.equal y

end Schema

end ErModel
