import ErModel.Schema.Violation

/-!
# Why an edit is refused
-/

namespace ErModel

/-- Why an edit makes no sense, although all that it names exists. -/
inductive Refusal where
  | keyRequired
  | nameTaken (name : String)
  | keyColumn (name : String)
  /-- A foreign key would have nothing to refer to on the table. -/
  | nothingToReference (table : String)
  | noColumnOpen
  | noJoinOpen
  deriving DecidableEq

/-- The words for a refusal. -/
def Refusal.message : Refusal → String
  | .keyRequired => "a table with columns needs a primary key"
  | .nameTaken name => s!"a table named {name} already exists"
  | .keyColumn name => s!"cannot delete primary key column {name}"
  | .nothingToReference table => s!"no column to reference on table {table}"
  | .noColumnOpen => "no column is being edited"
  | .noJoinOpen => "no join is being edited"

/-- Why a junction table cannot be made. -/
inductive JunctionFault where
  | noKey (table : String)
  | nameTaken (name : String)
  deriving DecidableEq

/-- The words for a fault of a junction table. -/
def JunctionFault.message : JunctionFault → String
  | .noKey table => s!"no key column to reference on {table}"
  | .nameTaken name => s!"a table named {name} already exists"

/-- Why an edit is refused. -/
inductive EditError where
  | unknownTable (table : TableId)
  | unknownColumn (table : TableId) (column : ColumnId)
  | unknownJoin (join : JoinId)
  | refused (refusal : Refusal)
  | violation (violation : Violation)
  | junction (fault : JunctionFault)
  deriving DecidableEq

/-- The words for a violated invariant. -/
def violationMessage (violation : Violation) : String :=
  "Invariant violated: " ++ violation.message

/-- The words for a refused edit. -/
def EditError.message : EditError → String
  | .unknownTable table => s!"Unknown table: {table.text}"
  | .unknownColumn table column => s!"Unknown column {column.text} on table {table.text}"
  | .unknownJoin join => s!"Unknown join: {join.text}"
  | .refused r => s!"Invalid intent: {r.message}"
  | .violation v => violationMessage v
  | .junction fault => s!"Cannot synthesize junction table: {fault.message}"

end ErModel
