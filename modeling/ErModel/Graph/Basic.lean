import ErModel.Graph.Canvas

/-!
# The graph of a schema

A node for every table and an edge for every join that has a target. The edge leaves the table
that holds the join, and its ends show how many rows stand on either side.
-/

namespace ErModel

/-- How much of a table its node shows. -/
inductive DetailLevel where
  | tables
  | keys
  | keysAndForeignKeys
  | all
  deriving DecidableEq

namespace DetailLevel

/-- The level that a word names. -/
def ofWord? : String → Option DetailLevel
  | "tables" => some .tables
  | "pk" => some .keys
  | "pk_fk" => some .keysAndForeignKeys
  | "all" => some .all
  | _ => none

/-- Whether a column is shown. -/
def shows (detail : DetailLevel) (column : Column) : Bool :=
  match detail with
  | .tables => false
  | .keys => column.primaryKey
  | .keysAndForeignKeys => column.primaryKey || column.foreignKey.isSome
  | .all => true

end DetailLevel

/-- How many rows stand at one end of an edge. -/
inductive Marker where
  | one
  | many
  deriving DecidableEq

/-- A column on a node. -/
structure NodeColumn where
  id : ColumnId
  name : String
  type : String
  isKey : Bool
  isForeignKey : Bool
  deriving DecidableEq

/-- A table in the graph. -/
structure Node where
  id : TableId
  label : String
  position : Option Position
  columns : List NodeColumn
  deriving DecidableEq

/-- A join in the graph. -/
structure Edge where
  id : JoinId
  source : TableId
  target : TableId
  label : String
  sourceMarker : Marker
  targetMarker : Marker
  isLoop : Bool
  pending : Bool
  deriving DecidableEq

/-- The picture of a schema. -/
structure Graph where
  nodes : List Node
  edges : List Edge
  deriving DecidableEq

/-- The ends of an edge. Once there is a foreign key column, the table that holds it is the "many"
end, unless the join is one-to-one. -/
def JoinKind.markers (kind : JoinKind) (configured : Bool) : Marker × Marker :=
  match kind with
  | .oneToOne => (.one, .one)
  | .oneToMany => if configured then (.many, .one) else (.one, .many)
  | .manyToOne => (.many, .one)
  | .manyToMany => if configured then (.many, .one) else (.many, .many)

/-- The edge of a join, if the join has a target. -/
def OwnedJoin.edge? (owned : OwnedJoin) : Option Edge :=
  owned.join.peer?.map fun peer =>
    let markers := owned.join.kind.markers owned.isConfigured
    { id := owned.join.id
      source := owned.holder.id
      target := peer
      label := owned.join.kind.label
      sourceMarker := markers.1
      targetMarker := markers.2
      isLoop := peer = owned.holder.id
      pending := !owned.isConfigured }

/-- The column on the node of its table. -/
def Column.onNode (column : Column) : NodeColumn where
  id := column.id
  name := column.name
  type := column.dataType.name
  isKey := column.primaryKey
  isForeignKey := column.foreignKey.isSome

/-- The node of a table. -/
def Table.node (table : Table) (position : Option Position) (detail : DetailLevel) : Node where
  id := table.id
  label := table.name
  position := position
  columns := (table.columns.filter detail.shows).map (·.onNode)

namespace Schema

/-- The edges of all joins. -/
def edges (schema : Schema) : List Edge := schema.owningJoins.filterMap (·.edge?)

/-- The picture of a schema. -/
def graph (schema : Schema) (canvas : Canvas) (detail : DetailLevel) : Graph where
  nodes := schema.tables.map fun table => table.node (canvas.position? table.id) detail
  edges := schema.edges

/-- The owning record that an edge stands for: in the first table that has one, on a column rather
than among the joins. A mirror is never meant, but a self-join found among the joins is. -/
def resolveEdge? (schema : Schema) (edge : JoinId) : Option OwnedJoin :=
  schema.tables.findSome? fun table =>
    match table.columns.find? (·.carries edge) with
    | some column => column.foreignKey.map fun join => ⟨table, some column, join⟩
    | none =>
      (table.joins.find? fun j => j.id = edge && (j.source = table.id || j.isSelfJoin)).map
        fun join => ⟨table, none, join⟩

end Schema

end ErModel
