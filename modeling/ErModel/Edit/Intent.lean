import ErModel.Edit.Columns
import ErModel.Edit.Joins
import ErModel.Edit.Tables

/-!
# Intents

Every edit as a value, and what it made beside the next schema.
-/

namespace ErModel

/-- An edit that somebody wants. -/
inductive Intent where
  | createTable (name : String) (keyType : DataType)
  | deleteTable (table : TableId)
  | duplicateTable (table : TableId)
  | replaceColumns (table : TableId) (columns : List Column)
  | replaceTableFields (table : TableId) (patch : TablePatch)
  | addColumn (table : TableId) (name : String)
  | deleteColumn (table : TableId) (column : ColumnId)
  | connect (source target : TableId) (column : Option ColumnId) (onDelete onUpdate : Action)
  | configureJoin (join : JoinId) (config : JoinConfig)
  | deleteJoin (join : JoinId)

/-- What an edit made. -/
inductive Effect where
  | none
  | tableCreated (table : TableId)
  | columnCreated (table : TableId) (column : ColumnId)
  | joinCreated (join : JoinId)
  | joinConfigured (configured : Configured)
  deriving DecidableEq

/-- How many ids an edit of a schema may take from a supply. -/
def Intent.idCount (schema : Schema) : Intent → Nat
  | .createTable .. => 2
  | .duplicateTable table => 1 + ((schema.table? table).map (·.columns.length)).getD 0
  | .addColumn .. => 1
  | .configureJoin .. => 4
  | _ => 0

/-- Applies an edit. -/
def Schema.apply (schema : Schema) (ids : IdSupply) : Intent → Except EditError (Schema × Effect)
  | .createTable name keyType => do
    let (next, table) ← schema.createTable ids name keyType
    return (next, .tableCreated table)
  | .deleteTable table => do return (← schema.deleteTable table, .none)
  | .duplicateTable table => do
    let (next, copy) ← schema.duplicateTable ids table
    return (next, .tableCreated copy)
  | .replaceColumns table columns => do return (← schema.replaceColumns table columns, .none)
  | .replaceTableFields table patch => do return (← schema.replaceTableFields table patch, .none)
  | .addColumn table name => do
    let (next, column) ← schema.addColumn ids table name
    return (next, .columnCreated table column)
  | .deleteColumn table column => do return (← schema.deleteColumn table column, .none)
  | .connect source target column onDelete onUpdate => do
    let (next, join) ← schema.connect source target column onDelete onUpdate
    return (next, .joinCreated join)
  | .configureJoin join config => do
    let (next, configured) ← schema.configureJoin ids join config
    return (next, .joinConfigured configured)
  | .deleteJoin join => do return (← schema.deleteJoin join, .none)

end ErModel
