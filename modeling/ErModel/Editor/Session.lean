import ErModel.Edit.Columns
import ErModel.Graph.Basic
import ErModel.Edit.Intent

/-!
# Edit sessions

The column and the join that are open for editing, each with a draft of its own. Both may be open
at once, since configuring a join opens the column that carries it. A draft changes nothing until
it is committed.
-/

namespace ErModel

/-- A column that is open, with its draft. -/
structure ColumnEdit where
  table : TableId
  draft : Column
  deriving DecidableEq

/-- A join that is open, with its draft. -/
structure JoinEdit where
  join : JoinId
  draft : JoinConfig
  deriving DecidableEq

/-- What is open, and why the last commit of a join failed, if it did. -/
structure Session where
  column : Option ColumnEdit
  join : Option JoinEdit
  failure : Option EditError
  deriving DecidableEq

namespace Session

/-- Nothing is open. -/
def empty : Session := ⟨none, none, none⟩

/-- Opens a column. -/
def openColumn (session : Session) (schema : Schema) (table : TableId) (column : ColumnId) :
    Except EditError Session := do
  let owner ← schema.requireTable table
  match owner.column? column with
  | some draft => return { session with column := some ⟨table, draft⟩ }
  | none => throw (.unknownColumn table column)

/-- Opens the join that an edge stands for. -/
def openJoin (session : Session) (schema : Schema) (join : JoinId) : Except EditError Session :=
  match (schema.resolveEdge? join).bind fun owned => JoinConfig.ofJoin? owned.join with
  | some draft => .ok { session with join := some ⟨join, draft⟩, failure := none }
  | none => .error (.unknownJoin join)

/-- Closes the column. -/
def closeColumn (session : Session) : Session := { session with column := none }

/-- Closes the join. -/
def closeJoin (session : Session) : Session := { session with join := none, failure := none }

/-- Whether the column that is open exists. -/
def ColumnEdit.isLive (edit : ColumnEdit) (schema : Schema) : Bool :=
  ((schema.table? edit.table).bind (·.column? edit.draft.id)).isSome

/-- Drops the drafts of what no longer exists. -/
def forgetMissing (session : Session) (schema : Schema) : Session :=
  { session with
    column := session.column.filter (ColumnEdit.isLive · schema)
    join := session.join.filter fun edit => (schema.resolveEdge? edit.join).isSome }

/-- The columns of a table with a draft in place of the column it is of. A draft that is the
primary key takes that from the others. -/
def mergeDraft (table : Table) (draft : Column) : List Column :=
  table.columns.map fun column =>
    if column.id = draft.id then draft
    else { column with primaryKey := column.primaryKey && !draft.primaryKey }

/-- Writes the open column back into its table. Its foreign key stays as it is in the table, since
relationships change through joins alone. -/
def commitColumn (session : Session) (schema : Schema) : Except EditError (Session × Schema) := do
  let some edit := session.column | throw (.refused .noColumnOpen)
  let table ← schema.requireTable edit.table
  let some current := table.column? edit.draft.id
    | throw (.unknownColumn edit.table edit.draft.id)
  let draft := { edit.draft with foreignKey := current.foreignKey }
  let next ← schema.replaceColumns edit.table (mergeDraft table draft)
  let saved := (next.table? edit.table).bind (·.column? draft.id)
  let column := (saved.map (ColumnEdit.mk edit.table)).or session.column
  return ({ session with column := column }, next)

/-- Opens what configuring a join has made: the join again and the column that carries it, or
nothing, if a junction table has replaced it. -/
def openConfigured (session : Session) (schema : Schema) (join : JoinId) :
    Configured → Except EditError Session
  | .foreignKey table column => do
    let opened ← session.openJoin schema join
    opened.openColumn schema table column
  | .junction _ => .ok { session with join := none }

/-- Configures the open join as its draft says. A commit that fails keeps the draft open and records
why. -/
def commitJoin (session : Session) (schema : Schema) (ids : IdSupply) :
    Session × Except EditError (Schema × Configured) :=
  match session.join with
  | none => (session, .error (.refused .noJoinOpen))
  | some edit =>
    match schema.configureJoin ids edit.join edit.draft with
    | .error error => ({ session with failure := some error }, .error error)
    | .ok (next, configured) =>
      let session := { session with failure := none }
      match session.openConfigured next edit.join configured with
      | .ok opened => (opened, .ok (next, configured))
      | .error error => (session, .error error)

end Session

end ErModel
