import ErModel.Edit.Basic

/-!
# Edits of tables
-/

namespace ErModel

/-- The fields of a table that can be changed without touching its columns; what is not given
stays. -/
structure TablePatch where
  name : Option String
  storageName : Option String
  description : Option String
  deriving DecidableEq

/-- The table with the given fields. -/
def TablePatch.apply (patch : TablePatch) (table : Table) : Table :=
  { table with
    name := patch.name.getD table.name
    storageName := patch.storageName.getD table.storageName
    description := patch.description.getD table.description }

/-- A copy of a table's plain columns, under new ids. Relationships are not copied. -/
def Table.copy (table : Table) (name : String) (ids : IdSupply) : Table :=
  let columns := table.columns.mapIdx fun i column =>
    { column with
      id := ids.columnId (i + 1)
      tableId := ids.tableId 0
      foreignKey := none }
  { id := ids.tableId 0
    name := name
    storageName := ""
    primaryKey := ((columns.filter (·.primaryKey)).getLast?).map (·.id)
    description := table.description
    columns := columns
    joins := [] }

namespace Schema

/-- Adds a table with a single key column. A name that is taken gets a number. -/
def createTable (schema : Schema) (ids : IdSupply) (name : String) (keyType : DataType) :
    Except EditError (Schema × TableId) := do
  let table := Table.seeded (ids.tableId 0) (ids.columnId 1) (schema.freeTableName name) keyType
  return (← (schema.append table).settle, table.id)

/-- Removes a table, and every join that it takes part in. -/
def deleteTable (schema : Schema) (table : TableId) : Except EditError Schema := do
  let _ ← schema.requireTable table
  let stripped := schema.stripAll (schema.joinsTouching table)
  settle ⟨stripped.tables.filter (·.id ≠ table)⟩

/-- Adds a copy of a table. -/
def duplicateTable (schema : Schema) (ids : IdSupply) (table : TableId) :
    Except EditError (Schema × TableId) := do
  let pattern ← schema.requireTable table
  let copy := pattern.copy (schema.freeTableName (pattern.name ++ "_copy")) ids
  return (← (schema.append copy).settle, copy.id)

/-- Changes fields of a table. -/
def replaceTableFields (schema : Schema) (table : TableId) (patch : TablePatch) :
    Except EditError Schema := do
  let _ ← schema.requireTable table
  if let some name := patch.name then
    if schema.tables.any fun t => t.id ≠ table && t.name = name then
      throw (.refused (.nameTaken name))
  settle (schema.modifyTable table patch.apply)

end Schema

end ErModel
