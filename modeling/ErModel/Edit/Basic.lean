import ErModel.Edit.Error
import ErModel.Schema.Validity

/-!
# Edits

An edit takes a schema and gives the next one, or says why not; the one it was given stays as it
is. Whatever an edit builds is checked as a whole before it is handed out, so a caller has either
a consistent schema or an error and the schema it had.
-/

namespace ErModel

/-- Drops a join from a table: its records, and the column that carries it. A primary key column
stays and loses its foreign key. -/
def Table.strip (table : Table) (join : JoinId) : Table :=
  { table with
    joins := table.joins.filter (·.id ≠ join)
    columns := (table.columns.filter fun c => c.primaryKey || !c.carries join).map fun c =>
      if c.carries join then { c with foreignKey := none } else c }

namespace Schema

/-- Hands out a schema that an edit has built, if it is valid. -/
def settle (schema : Schema) : Except EditError Schema :=
  match schema.validate with
  | .ok () => .ok schema
  | .error violation => .error (.violation violation)

/-- What an edit hands out is valid, and it is what the edit built. -/
theorem settle_eq_ok {schema next : Schema} :
    schema.settle = .ok next ↔ schema.validate = .ok () ∧ next = schema := by
  unfold settle
  cases schema.validate with
  | ok u => simp [eq_comm]
  | error v => simp

/-- The table that an edit names. -/
def requireTable (schema : Schema) (table : TableId) : Except EditError Table :=
  match schema.table? table with
  | some table => .ok table
  | none => .error (.unknownTable table)

/-- Drops every trace of a join. -/
def strip (schema : Schema) (join : JoinId) : Schema := schema.mapTables (·.strip join)

/-- Drops every trace of several joins. -/
def stripAll (schema : Schema) (joins : List JoinId) : Schema := joins.foldl strip schema

end Schema

end ErModel
