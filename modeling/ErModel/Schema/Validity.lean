import ErModel.Schema.Basic

/-!
# Validity

The invariants of a schema, checked in a fixed order so that the first violation is always the
same one: first the tables one by one, then the owning records, then the mirrors.
-/

namespace ErModel

/-- Checks columns: ids not seen before, the right table, no fault. -/
def checkColumns (table : Table) (seen : List ColumnId) : List Column → Except Violation Unit
  | [] => .ok ()
  | column :: rest =>
    if column.id ∈ seen then .error (.duplicateColumnId column.id table.name)
    else if column.tableId ≠ table.id then
      .error (.strayColumn column.name column.tableId table.id)
    else match column.fault? with
      | some fault => .error (.columnFault column.name column.id fault)
      | none => checkColumns table (column.id :: seen) rest

/-- Checks that a table with columns has one key column, and knows it. -/
def checkKey (table : Table) : Except Violation Unit :=
  if table.columns.isEmpty then .ok ()
  else match table.columns.filter (·.primaryKey) with
    | [key] => if table.primaryKey = some key.id then .ok () else .error (.keyMismatch table.name)
    | keys => .error (.keyCount table.name keys.length)

/-- Checks a table on its own. -/
def Table.check (table : Table) : Except Violation Unit := do
  checkColumns table [] table.columns
  checkKey table

/-- Checks tables: ids and names not seen before, and each table on its own. -/
def checkTables (ids : List TableId) (names : List String) : List Table → Except Violation Unit
  | [] => .ok ()
  | table :: rest =>
    if table.id ∈ ids then .error (.duplicateTableId table.id)
    else if table.name ∈ names then .error (.duplicateTableName table.name)
    else do
      table.check
      checkTables (table.id :: ids) (table.name :: names) rest

/-- Checks that what a join refers to exists. -/
def Schema.checkTarget (schema : Schema) (join : Join) : Except Violation Unit :=
  match join.target with
  | none => .ok ()
  | some target =>
    match schema.table? target.table with
    | none => .error (.missingTable join.id target.table)
    | some peer =>
      match target.column with
      | none => .ok ()
      | some column =>
        if (peer.column? column).isSome then .ok ()
        else .error (.missingColumn join.id column peer.name)

/-- Whether a join may sit on a foreign key column: it refers to a column, and is not
many-to-many. -/
def Join.fitsForeignKey (join : Join) : Bool :=
  join.target.any (·.column.isSome) && join.kind ≠ .manyToMany

/-- Checks an owning record that is the first with its id. -/
def Schema.checkOwner (schema : Schema) (owned : OwnedJoin) : Except Violation Unit := do
  if owned.join.source ≠ owned.holder.id then
    throw (.sourceMismatch owned.join.id owned.holder.name)
  schema.checkTarget owned.join
  if owned.isConfigured && !owned.join.fitsForeignKey then
    throw (.unfitForeignKey owned.join.id)

/-- Checks owning records, none with an id seen before. -/
def Schema.checkOwners (schema : Schema) (seen : List JoinId) :
    List OwnedJoin → Except Violation Unit
  | [] => .ok ()
  | owned :: rest =>
    if owned.join.id ∈ seen then .error (.severalOwners owned.join.id)
    else do
      schema.checkOwner owned
      schema.checkOwners (owned.join.id :: seen) rest

/-- The mirrors of all tables, each with its table. -/
def Schema.allMirrors (schema : Schema) : List (Table × Join) :=
  schema.tables.flatMap fun table => table.mirrors.map fun mirror => (table, mirror)

/-- Checks mirrors against the owning records, one mirror for a join at most. -/
def checkMirrors (owners : List Join) (seen : List JoinId) :
    List (Table × Join) → Except Violation Unit
  | [] => .ok ()
  | (table, mirror) :: rest =>
    match owners.find? (·.id = mirror.id) with
    | none => .error (.strayMirror mirror.id table.name)
    | some owner =>
      if mirror.id ∈ seen then .error (.severalMirrors mirror.id)
      else if mirror.source ≠ owner.source || !owner.agreesWith mirror then
        .error (.mirrorMismatch mirror.id table.name)
      else checkMirrors owners (mirror.id :: seen) rest

/-- Checks every invariant. -/
def Schema.validate (schema : Schema) : Except Violation Unit := do
  checkTables [] [] schema.tables
  schema.checkOwners [] schema.owningJoins
  checkMirrors (schema.owningJoins.map (·.join)) [] schema.allMirrors

end ErModel
