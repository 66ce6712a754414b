import ErModel.Schema.Id

/-!
# Violations

What can be wrong with a schema, one constructor for each invariant, and the words for it.
-/

namespace ErModel

/-- Flags and attributes of a column that cannot hold together. -/
inductive ColumnFault where
  | autoIncrement
  | nullableUnique
  | nullableKey
  | looseScale
  deriving DecidableEq

/-- The words for a fault of a column, after its name. -/
def ColumnFault.message : ColumnFault → String
  | .autoIncrement => "auto-increments without being a numeric primary key"
  | .nullableUnique => "is unique and nullable"
  | .nullableKey => "is a nullable primary key"
  | .looseScale => "has a float scale without a precision"

/-- An invariant that a schema breaks. -/
inductive Violation where
  | duplicateTableId (table : TableId)
  | duplicateTableName (name : String)
  | duplicateColumnId (column : ColumnId) (table : String)
  /-- A column says that it belongs to another table than the one it is in. -/
  | strayColumn (column : String) (claimed home : TableId)
  | columnFault (column : String) (id : ColumnId) (fault : ColumnFault)
  /-- The key that the table names is not its key column. -/
  | keyMismatch (table : String)
  | keyCount (table : String) (count : Nat)
  | severalOwners (join : JoinId)
  | sourceMismatch (join : JoinId) (table : String)
  | missingTable (join : JoinId) (table : TableId)
  | missingColumn (join : JoinId) (column : ColumnId) (table : String)
  /-- A foreign key column carries a join that is not configured, or a many-to-many one. -/
  | unfitForeignKey (join : JoinId)
  /-- A mirror without an owning record. -/
  | strayMirror (join : JoinId) (table : String)
  | severalMirrors (join : JoinId)
  | mirrorMismatch (join : JoinId) (table : String)
  deriving DecidableEq

/-- The words for a violation. -/
def Violation.message : Violation → String
  | .duplicateTableId table => s!"duplicate table id {table.text}"
  | .duplicateTableName name => s!"duplicate table name {name}"
  | .duplicateColumnId column table => s!"duplicate column id {column.text} in table {table}"
  | .strayColumn column claimed home =>
    s!"column {column} claims table {claimed.text} but lives in {home.text}"
  | .columnFault column id fault => s!"column {column} ({id.text}) {fault.message}"
  | .keyMismatch table => s!"table {table} primary key id does not match its key column"
  | .keyCount table count => s!"table {table} has {count} primary key columns"
  | .severalOwners join => s!"join {join.text} has more than one owning record"
  | .sourceMismatch join table => s!"join {join.text} source does not match table {table}"
  | .missingTable join table => s!"join {join.text} references missing table {table.text}"
  | .missingColumn join column table =>
    s!"join {join.text} references missing column {column.text} on {table}"
  | .unfitForeignKey join =>
    s!"foreign key {join.text} is not a configured non many-to-many join"
  | .strayMirror join table => s!"mirror {join.text} on {table} has no owning record"
  | .severalMirrors join => s!"join {join.text} is mirrored more than once"
  | .mirrorMismatch join table =>
    s!"mirror {join.text} on {table} disagrees with its owning record"

end ErModel
