import ErModel.Edit.Basic

/-!
# Edits of joins

A join starts out pending: a record among the joins of the table that declares it. Configuring it
gives it a foreign key column, or, if it is many-to-many, a junction table in its stead.
-/

namespace ErModel

/-- All that can be chosen about a join. -/
structure JoinConfig where
  target : JoinTarget
  kind : JoinKind
  onDelete : Action
  onUpdate : Action
  through : Option String
  joinColumn : Option JunctionColumn
  inverseColumn : Option JunctionColumn
  deriving DecidableEq

/-- What a record says about its join. A mirror has no target and says nothing. -/
def JoinConfig.ofJoin? (join : Join) : Option JoinConfig :=
  join.target.map fun target =>
    { target := target
      kind := join.kind
      onDelete := join.onDelete
      onUpdate := join.onUpdate
      through := join.through
      joinColumn := join.joinColumn
      inverseColumn := join.inverseColumn }

/-- What has become of a configured join. -/
inductive Configured where
  /-- The column that carries it now. -/
  | foreignKey (table : TableId) (column : ColumnId)
  /-- The junction table that has replaced it. -/
  | junction (table : TableId)
  deriving DecidableEq

/-- A foreign key column that carries `join`. -/
def Column.foreign (id : ColumnId) (table : TableId) (name : String) (dataType : DataType)
    (join : Join) : Column :=
  { Column.plain id table name with
    storageName := snakeCase name
    dataType := dataType
    foreignKey := some join }

/-- The table with a further record of a join. -/
def Table.addJoin (table : Table) (join : Join) : Table :=
  { table with joins := table.joins ++ [join] }

/-- The table with a further column. -/
def Table.addColumn (table : Table) (column : Column) : Table :=
  { table with columns := table.columns ++ [column] }

/-- The table with a join put on one of its columns, which takes the type it refers to. -/
def Table.setForeignKey (table : Table) (column : ColumnId) (dataType : DataType)
    (join : Join) : Table :=
  { table with
    columns := modifyFirst (·.id = column)
      (fun c => { c with dataType := dataType, foreignKey := some join }) table.columns }

/-! ## Junction tables -/

/-- The column that a foreign key of a junction refers to: the named one if there is such a column,
and otherwise the primary key. -/
def Table.junctionKey? (table : Table) (named : Option JunctionColumn) : Option Column :=
  (named.bind fun n => table.columnNamed? n.referenced).or table.primaryKeyColumn?

/-- The name wanted for a foreign key of a junction. -/
def junctionColumnName (named : Option JunctionColumn) (table : String) : String :=
  let wanted := (named.map fun n => Text.trim n.name).getD ""
  if wanted.isEmpty then foreignKeyName table else wanted

/-- The name of the junction table between two tables. -/
def junctionName (config : JoinConfig) (a b : Table) : String :=
  let wanted := (config.through.map Text.trim).getD ""
  if wanted.isEmpty then a.name ++ b.name else wanted

/-- The type of the key of a junction table: that of the declaring table, if it is a usual one. -/
def junctionKeyType (a : Table) : DataType :=
  if a.primaryKeyColumn?.any (·.dataType.isNumber) then .number else .uuid

/-- The join from a junction table to one side. -/
def junctionJoin (config : JoinConfig) (junction : TableId) (side : Table) (key : Column)
    (n : Nat) : Join where
  id := JoinId.nth junction side.id n
  kind := .oneToMany
  source := junction
  target := some ⟨side.id, some key.id⟩
  onDelete := config.onDelete
  onUpdate := config.onUpdate
  through := none
  joinColumn := none
  inverseColumn := none

/-- The junction table with the foreign key column of one side added. -/
def Table.addJunctionColumn (junction : Table) (id : ColumnId) (wanted : String) (key : Column)
    (join : Join) : Table :=
  let name := junction.freeColumnName wanted
  junction.addColumn (Column.foreign id junction.id name key.dataType join)

/-- Replaces a join, declared by `declaring`, by a junction table. -/
def Schema.synthesizeJunction (schema : Schema) (ids : IdSupply) (join : JoinId)
    (declaring : TableId) (config : JoinConfig) : Except EditError (Schema × TableId) := do
  let a ← schema.requireTable declaring
  let b ← schema.requireTable config.target.table
  let some aKey := a.junctionKey? config.joinColumn | throw (.junction (.noKey a.name))
  let some bKey := b.junctionKey? config.inverseColumn | throw (.junction (.noKey b.name))
  let name := junctionName config a b
  if (schema.tableNamed? name).isSome then throw (.junction (.nameTaken name))
  let seeded := Table.seeded (ids.tableId 0) (ids.columnId 1) name (junctionKeyType a)
  let toA := junctionJoin config seeded.id a aKey 0
  let toB := junctionJoin config seeded.id b bKey (if a.id = b.id then 1 else 0)
  let withA := seeded.addJunctionColumn (ids.columnId 2)
    (junctionColumnName config.joinColumn a.name) aKey toA
  let junction := withA.addJunctionColumn (ids.columnId 3)
    (junctionColumnName config.inverseColumn b.name) bKey toB
  let stripped := schema.strip join
  let mirrored := (stripped.modifyTable a.id (·.addJoin toA.mirror)).modifyTable b.id
    (·.addJoin toB.mirror)
  return (← (mirrored.append junction).settle, junction.id)

/-- Checks that the table has the column that a join is to refer to, if it names one. -/
def Table.checkReferenced (table : Table) : Option ColumnId → Except EditError Unit
  | none => .ok ()
  | some column =>
    if (table.column? column).isSome then .ok () else .error (.unknownColumn table.id column)

namespace Schema

/-- Declares a join from `source` to `target`, pending until it is configured. If the pair has a
join already, the schema stays as it is. -/
def connect (schema : Schema) (source target : TableId) (column : Option ColumnId)
    (onDelete onUpdate : Action) : Except EditError (Schema × JoinId) := do
  let _ ← schema.requireTable source
  let peer ← schema.requireTable target
  let id := JoinId.between source target
  if schema.containsJoin id then return (schema, id)
  peer.checkReferenced column
  let join : Join :=
    { id := id
      kind := .oneToOne
      source := source
      target := some ⟨target, column.or (peer.keyColumn?.map (·.id))⟩
      onDelete := onDelete
      onUpdate := onUpdate
      through := none
      joinColumn := none
      inverseColumn := none }
  let mirrored :=
    if source ≠ target then schema.modifyTable target (·.addJoin join.mirror) else schema
  return (← (mirrored.modifyTable source (·.addJoin join)).settle, id)

/-- Configures a join that is not many-to-many: `record` becomes its only owning record, on the
column that carries it already or on a new one. -/
def placeForeignKey (schema : Schema) (ids : IdSupply) (record : Join) (existing : Option ColumnId)
    (referenced : Table) (dataType : DataType) : Schema × ColumnId :=
  let holder := record.source
  let (placed, column) := match existing with
    | some column =>
      let cleared := schema.mapTables fun t =>
        { t with joins := t.joins.filter (·.id ≠ record.id) }
      (cleared.modifyTable holder (·.setForeignKey column dataType record), column)
    | none =>
      let column := ids.columnId 0
      ((schema.strip record.id).modifyTable holder fun t =>
        t.addColumn (Column.foreign column holder
          (t.freeColumnName (foreignKeyName referenced.name)) dataType record),
        column)
  (if referenced.id ≠ holder then placed.modifyTable referenced.id (·.addJoin record.mirror)
    else placed, column)

/-- Configures a pending join, or changes a configured one, which keeps its column. The column of a
pending one-to-many join goes to the table it was declared towards, that of any other to the table
that declares it. A many-to-many join is replaced by a junction table. -/
def configureJoin (schema : Schema) (ids : IdSupply) (join : JoinId) (config : JoinConfig) :
    Except EditError (Schema × Configured) := do
  let chosen ← schema.requireTable config.target.table
  chosen.checkReferenced config.target.column
  let existing := schema.foreignKey? join
  let some declaring :=
    (existing.map (·.1.id)).or ((schema.pending? join).map (·.1.id))
    | throw (.unknownJoin join)
  if config.kind = .manyToMany then
    let (next, table) ← schema.synthesizeJunction ids join declaring config
    return (next, .junction table)
  let (holder, referenced) :=
    if existing.isNone && config.kind = .oneToMany then (config.target.table, declaring)
    else (declaring, config.target.table)
  let referencedTable ← schema.requireTable referenced
  let referencedColumn? :=
    if referenced = config.target.table && config.target.column.isSome then
      config.target.column.bind referencedTable.column?
    else referencedTable.keyColumn?
  let some referencedColumn := referencedColumn?
    | throw (.refused (.nothingToReference referencedTable.name))
  let record : Join :=
    { id := join
      kind := config.kind
      source := holder
      target := some ⟨referenced, some referencedColumn.id⟩
      onDelete := config.onDelete
      onUpdate := config.onUpdate
      through := config.through
      joinColumn := none
      inverseColumn := none }
  let (next, column) := schema.placeForeignKey ids record (existing.map (·.2.id)) referencedTable
    referencedColumn.dataType
  return (← next.settle, .foreignKey holder column)

/-- Removes a join: its column or its pending record, and its mirror. -/
def deleteJoin (schema : Schema) (join : JoinId) : Except EditError Schema :=
  if !schema.containsJoin join && (schema.mirrors join).isEmpty then .error (.unknownJoin join)
  else settle (schema.strip join)

end Schema

end ErModel
