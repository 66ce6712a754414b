import ErModel.Edit.Joins
import ErModel.Graph.Canvas

/-!
# Reconciling

A schema compiled from edited text has new ids throughout. Reconciling gives its parts the
identities that they had before: tables are the same if they have the same name, columns if they
have the same name in the same table, and the join of a foreign key if the same column carried it
towards the same table. Pending joins have no form in a text, so those whose tables are still there
are put back.
-/

namespace ErModel

/-- Which new ids stand for old ones; of two entries for one id the first counts. -/
structure Renaming where
  tables : List (TableId × TableId)
  columns : List (ColumnId × ColumnId)

namespace Renaming

/-- The id that a table keeps. -/
def table (names : Renaming) (id : TableId) : TableId := (names.tables.lookup id).getD id

/-- The id that a column keeps. -/
def column (names : Renaming) (id : ColumnId) : ColumnId := (names.columns.lookup id).getD id

/-- Matches tables by name, and their columns by name. -/
def byName (previous parsed : Schema) : Renaming :=
  let matched := parsed.tables.filterMap fun table =>
    (previous.tableNamed? table.name).map fun old => (table, old)
  { tables := (matched.map fun (table, old) => (table.id, old.id)).reverse
    columns := (matched.flatMap fun (table, old) =>
      table.columns.filterMap fun column =>
        (old.columnNamed? column.name).map fun oldColumn => (column.id, oldColumn.id)).reverse }

/-- A record with the ids that its parts keep; its own id is not touched. -/
def join (names : Renaming) (join : Join) : Join :=
  { join with
    source := names.table join.source
    target := join.target.map fun target =>
      ⟨names.table target.table, target.column.map names.column⟩ }

/-- A table with the ids that its parts keep. -/
def applyTable (names : Renaming) (table : Table) : Table :=
  { table with
    id := names.table table.id
    primaryKey := table.primaryKey.map names.column
    columns := table.columns.map fun column =>
      { column with
        id := names.column column.id
        tableId := names.table table.id
        foreignKey := column.foreignKey.map names.join }
    joins := table.joins.map names.join }

/-- A schema with the ids that its parts keep. -/
def apply (names : Renaming) (schema : Schema) : Schema := schema.mapTables names.applyTable

end Renaming

/-! ## Ids of joins -/

/-- The id that a join had before, if the same column carried a join towards the same table. -/
def Schema.keptId? (previous : Schema) (owned : OwnedJoin) (target : TableId) : Option JoinId := do
  let column ← owned.column
  let oldTable ← previous.table? owned.holder.id
  let oldColumn ← oldTable.column? column.id
  let old ← oldColumn.foreignKey
  if old.peer? = some target then some old.id else none

/-- Final ids of joins by their ids in the compiled text, and what is left to do. -/
structure JoinIds where
  assigned : List (JoinId × JoinId)
  used : List JoinId
  /-- Joins that keep no id, with the tables they are between. -/
  waiting : List (JoinId × TableId × TableId)

namespace JoinIds

/-- A join that keeps the id it had, unless another has taken it, or waits for a new one. -/
def keep (previous : Schema) (ids : JoinIds) (owned : OwnedJoin) : JoinIds :=
  match owned.join.peer? with
  | none => ids
  | some target =>
    match previous.keptId? owned target with
    | some id =>
      if id ∈ ids.used then
        { ids with waiting := ids.waiting ++ [(owned.join.id, owned.holder.id, target)] }
      else
        { ids with assigned := (owned.join.id, id) :: ids.assigned, used := id :: ids.used }
    | none => { ids with waiting := ids.waiting ++ [(owned.join.id, owned.holder.id, target)] }

/-- A join that gets the first id between its tables that is not in use. -/
def assign (ids : JoinIds) (join : JoinId × TableId × TableId) : JoinIds :=
  let candidate := JoinId.nth join.2.1 join.2.2
  let id := candidate (firstUnused ids.used candidate 0)
  { ids with assigned := (join.1, id) :: ids.assigned, used := id :: ids.used }

/-- The final ids of all joins of `next`. -/
def settle (previous next : Schema) : JoinIds :=
  let kept := next.owningJoins.foldl (keep previous) ⟨[], [], []⟩
  kept.waiting.foldl assign kept

/-- The final id of a join. -/
def final (ids : JoinIds) (join : JoinId) : JoinId := (ids.assigned.lookup join).getD join

/-- A schema with the final ids of its joins, in all their records. -/
def apply (ids : JoinIds) (schema : Schema) : Schema :=
  let settled (join : Join) : Join := { join with id := ids.final join.id }
  schema.mapTables fun table =>
    { table with
      columns := table.columns.map fun column =>
        { column with foreignKey := column.foreignKey.map settled }
      joins := table.joins.map settled }

end JoinIds

/-! ## Pending joins -/

namespace Schema

/-- The pending joins of a schema. -/
def pendingJoins (schema : Schema) : List Join :=
  (schema.owningJoins.filter fun owned => !owned.isConfigured).map (·.join)

/-- What a pending join refers to once its column may be gone: then it is the key of the table. -/
def retarget (target : JoinTarget) (peer : Table) : JoinTarget :=
  match target.column with
  | some column =>
    if (peer.column? column).isSome then target
    else ⟨target.table, peer.keyColumn?.map (·.id)⟩
  | none => target

/-- Puts a pending join back, if its id is free and both its tables are there. -/
def carryPending (schema : Schema) (join : Join) : Schema :=
  if schema.containsJoin join.id then schema
  else match join.target with
    | none => schema
    | some target =>
      match schema.table? target.table, schema.table? join.source with
      | some peer, some _ =>
        let join := { join with target := some (retarget target peer) }
        let mirrored :=
          if join.isSelfJoin then schema
          else schema.modifyTable target.table (·.addJoin join.mirror)
        mirrored.modifyTable join.source (·.addJoin join)
      | _, _ => schema

/-- Gives a compiled schema the identities of the previous one, and its tables their positions. -/
def reconcile (previous : Schema) (canvas : Canvas) (parsed : Schema) (step : Binary64) :
    Except EditError (Schema × Canvas) := do
  let renamed := (Renaming.byName previous parsed).apply parsed
  let identified := (JoinIds.settle previous renamed).apply renamed
  let next ← (previous.pendingJoins.foldl carryPending identified).settle
  return (next, canvas.arranged next step)

end Schema

end ErModel
