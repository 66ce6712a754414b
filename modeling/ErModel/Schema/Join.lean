import ErModel.Schema.Id

/-!
# Joins

A join relates two tables. The table that refers holds the owning record: on a foreign key column
once the join is configured, among its own joins while it is pending. The table referred to may
hold a mirror, a record with the same id and without a target.
-/

namespace ErModel

/-- What happens to referring rows when the row they refer to is deleted or changed. -/
inductive Action where
  | cascade
  | setNull
  | restrict
  deriving DecidableEq, Inhabited

/-- How many rows on either side a join relates. -/
inductive JoinKind where
  | oneToOne
  | oneToMany
  | manyToOne
  | manyToMany
  deriving DecidableEq, Inhabited

/-- The name of a kind for people. -/
def JoinKind.label : JoinKind → String
  | .oneToOne => "one-to-one"
  | .oneToMany => "one-to-many"
  | .manyToOne => "many-to-one"
  | .manyToMany => "many-to-many"

/-- What a join refers to. The column may be missing only while the join is pending. -/
structure JoinTarget where
  table : TableId
  column : Option ColumnId
  deriving DecidableEq

/-- Names a foreign key of a junction table, and the column it refers to. -/
structure JunctionColumn where
  name : String
  referenced : String
  deriving DecidableEq

/-- A record of a join. -/
structure Join where
  id : JoinId
  kind : JoinKind
  source : TableId
  target : Option JoinTarget
  onDelete : Action
  onUpdate : Action
  /-- The name wanted for a junction table. -/
  through : Option String
  joinColumn : Option JunctionColumn
  inverseColumn : Option JunctionColumn
  deriving DecidableEq

namespace Join

/-- The table referred to. -/
def peer? (join : Join) : Option TableId := join.target.map (·.table)

/-- Whether the join refers to the table that declares it. -/
def isSelfJoin (join : Join) : Bool := join.peer? = some join.source

/-- The record for the table referred to. -/
def mirror (join : Join) : Join :=
  { join with target := none, joinColumn := none, inverseColumn := none }

/-- Whether two records agree on what both sides of a join know. -/
def agreesWith (join other : Join) : Bool :=
  join.id = other.id && join.kind = other.kind && join.onDelete = other.onDelete &&
    join.onUpdate = other.onUpdate && join.through = other.through

@[simp] theorem mirror_id (join : Join) : join.mirror.id = join.id := rfl

@[simp] theorem mirror_source (join : Join) : join.mirror.source = join.source := rfl

@[simp] theorem agreesWith_mirror (join : Join) : join.agreesWith join.mirror = true := by
  simp [agreesWith, mirror]

end Join

end ErModel
