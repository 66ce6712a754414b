import ErModel.Edit.Basic

/-!
# Edits of columns
-/

namespace ErModel

/-- The primary key of columns of which some are flagged: the previous one if it is flagged, else
the first flagged one, else the previous one if it is still there. -/
def chooseKey? (columns : List Column) (previous : Option ColumnId) : Option ColumnId :=
  let flagged := (columns.filter (·.primaryKey)).map (·.id)
  let kept := previous.filter (· ∈ flagged)
  let present := previous.filter fun p => columns.any (·.id = p)
  (kept.or flagged.head?).or present

/-- Flags the chosen primary key and no other column. Columns without a key are refused. -/
def settleKey (columns : List Column) (previous : Option ColumnId) :
    Except EditError (List Column × Option ColumnId) :=
  if columns.isEmpty then .ok ([], none)
  else match chooseKey? columns previous with
    | some key => .ok (columns.map fun c => { c with primaryKey := c.id = key }, some key)
    | none => .error (.refused .keyRequired)

namespace Schema

/-- Replaces the columns of a table, and puts in order what must hold of them. Joins that no
column carries any more are dropped. -/
def replaceColumns (schema : Schema) (table : TableId) (columns : List Column) :
    Except EditError Schema := do
  let current ← schema.requireTable table
  let (settled, key) ←
    settleKey (columns.map fun c => { c with tableId := table }) current.primaryKey
  let columns := settled.map (·.normalize)
  let next := schema.modifyTable table fun t => { t with columns := columns, primaryKey := key }
  let kept := columns.filterMap (·.foreignKey.map (·.id))
  settle (next.stripAll (current.carriedJoins.filter (· ∉ kept)))

/-- Adds a plain column. A name that is taken gets a number. -/
def addColumn (schema : Schema) (ids : IdSupply) (table : TableId) (name : String) :
    Except EditError (Schema × ColumnId) := do
  let current ← schema.requireTable table
  let column := Column.plain (ids.columnId 0) table (current.freeColumnName name)
  let next := schema.modifyTable table fun t => { t with columns := t.columns ++ [column] }
  return (← next.settle, column.id)

/-- Removes a column, and the join that it carries. A primary key stays. -/
def deleteColumn (schema : Schema) (table : TableId) (column : ColumnId) :
    Except EditError Schema := do
  let owner ← schema.requireTable table
  match owner.column? column with
  | none => throw (.unknownColumn table column)
  | some target =>
    if target.primaryKey then throw (.refused (.keyColumn target.name))
    let next := match target.foreignKey with
      | some join => schema.strip join.id
      | none => schema
    settle (next.modifyTable table fun t =>
      { t with columns := t.columns.filter (·.id ≠ column) })

end Schema

end ErModel
