import ErModel.Schema.DataType
import ErModel.Schema.Join
import ErModel.Schema.Name
import ErModel.Schema.Violation

/-!
# Columns and tables
-/

namespace ErModel

/-- A column, with the foreign key it carries if it is one. -/
structure Column where
  id : ColumnId
  tableId : TableId
  name : String
  storageName : String
  dataType : DataType
  primaryKey : Bool
  unique : Bool
  index : Bool
  nullable : Bool
  autoIncrement : Bool
  defaultValue : Option DefaultValue
  description : String
  foreignKey : Option Join
  deriving DecidableEq

namespace Column

/-- A plain string column. -/
def plain (id : ColumnId) (table : TableId) (name : String) : Column where
  id := id
  tableId := table
  name := name
  storageName := name
  dataType := .plainString
  primaryKey := false
  unique := false
  index := false
  nullable := false
  autoIncrement := false
  defaultValue := none
  description := ""
  foreignKey := none

/-- Clears what cannot hold beside the rest of the column. -/
def normalize (column : Column) : Column :=
  { column with
    autoIncrement := column.autoIncrement && column.primaryKey && column.dataType.isNumber
    nullable := column.nullable && !column.unique && !column.primaryKey
    dataType := column.dataType.dropLooseScale }

/-- The first fault of the column, if it has one. -/
def fault? (column : Column) : Option ColumnFault :=
  if column.autoIncrement && !(column.primaryKey && column.dataType.isNumber) then
    some .autoIncrement
  else if column.unique && column.nullable then some .nullableUnique
  else if column.primaryKey && column.nullable then some .nullableKey
  else if column.dataType.hasLooseScale then some .looseScale
  else none

/-- Whether the column carries the join with this id. -/
def carries (column : Column) (join : JoinId) : Bool :=
  column.foreignKey.any (·.id = join)

/-- Whether a foreign key may refer to the column without being told to. -/
def isKey (column : Column) : Bool := column.primaryKey || column.unique

/-- Equality of columns, numbers compared by value. -/
def equal (a b : Column) : Bool :=
  (match a.defaultValue, b.defaultValue with
    | some x, some y => x.equal y
    | none, none => true
    | _, _ => false) &&
  { a with defaultValue := none } = { b with defaultValue := none }

/-- A normalized column has no fault. -/
@[simp] theorem fault?_normalize (column : Column) : column.normalize.fault? = none := by
  cases hp : column.primaryKey <;> cases hu : column.unique <;>
    cases hn : column.dataType.isNumber <;> cases ha : column.autoIncrement <;>
    simp [normalize, fault?, hp, hu, ha, hn] <;>
    (cases ht : column.dataType <;> simp_all [DataType.isNumber, DataType.dropLooseScale])

/-- A column without a fault is left as it is. -/
theorem normalize_eq_self {column : Column} (h : column.fault? = none) :
    column.normalize = column := by
  obtain ⟨_, _, _, _, _, primaryKey, unique, _, nullable, autoIncrement, _, _, _⟩ := column
  simp only [fault?, normalize] at h ⊢
  split at h
  · simp at h
  split at h
  · simp at h
  split at h
  · simp at h
  split at h
  · simp at h
  rename_i h₁ h₂ h₃ h₄
  simp only [Bool.not_eq_true] at h₄
  simp only [DataType.dropLooseScale_eq_self h₄, Column.mk.injEq, true_and, and_true]
  constructor
  · cases nullable <;> simp_all
  · cases autoIncrement <;> simp_all

end Column

/-- A table. Its joins are those it declares and has not configured, and mirrors of others. -/
structure Table where
  id : TableId
  name : String
  storageName : String
  primaryKey : Option ColumnId
  description : String
  columns : List Column
  joins : List Join
  deriving DecidableEq

namespace Table

/-- A table with a single key column, called `id`. -/
def seeded (id : TableId) (key : ColumnId) (name : String) (keyType : DataType) : Table where
  id := id
  name := name
  storageName := ""
  primaryKey := some key
  description := ""
  columns := [{ Column.plain key id "id" with dataType := keyType, primaryKey := true }]
  joins := []

/-- The column with this id. -/
def column? (table : Table) (id : ColumnId) : Option Column := table.columns.find? (·.id = id)

/-- The first column of this name. -/
def columnNamed? (table : Table) (name : String) : Option Column :=
  table.columns.find? (·.name = name)

/-- The primary key column. -/
def primaryKeyColumn? (table : Table) : Option Column := table.columns.find? (·.primaryKey)

/-- The column that a new foreign key refers to: the first that is unique or the primary key. -/
def keyColumn? (table : Table) : Option Column := table.columns.find? (·.isKey)

/-- `base`, or with the first number that makes it a new column name. -/
def freeColumnName (table : Table) (base : String) : String :=
  freeName (table.columns.map (·.name)) base

/-- The pending joins that the table declares. -/
def pendingJoins (table : Table) : List Join := table.joins.filter (·.source = table.id)

/-- The mirrors that the table holds. -/
def mirrors (table : Table) : List Join := table.joins.filter (·.source ≠ table.id)

/-- The ids of the joins that the columns carry. -/
def carriedJoins (table : Table) : List JoinId :=
  table.columns.filterMap (·.foreignKey.map (·.id))

/-- Equality of tables, numbers compared by value. -/
def equal (a b : Table) : Bool :=
  a.columns.length = b.columns.length &&
    (a.columns.zip b.columns).all (fun (x, y) => x.equal y) &&
    { a with columns := [] } = { b with columns := [] }

end Table

end ErModel
