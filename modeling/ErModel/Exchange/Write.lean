import ErModel.Graph.Basic
import ErModel.Json.Basic

/-!
# Schemas as JSON

The members of every object stand in a fixed order. The attributes of a column's data type stand
in the column itself; those that are not set are left out, while other members that are not set
are `null`.
-/

namespace ErModel.Exchange

/-- An action. -/
def actionName : Action → String
  | .cascade => "CASCADE"
  | .setNull => "SET NULL"
  | .restrict => "RESTRICT"

/-- All actions by name. -/
def actions : List (String × Action) :=
  [("CASCADE", .cascade), ("SET NULL", .setNull), ("RESTRICT", .restrict)]

/-- All kinds of joins by name. -/
def kinds : List (String × JoinKind) :=
  [.oneToOne, .oneToMany, .manyToOne, .manyToMany].map fun kind => (kind.label, kind)

/-- The end of an edge. -/
def markerName : Marker → String
  | .one => "one"
  | .many => "many"

/-- A 32-bit number. -/
def ofWord (n : UInt32) : Json := .int n.toNat

/-- Members that are there only if they are set. -/
def setMember (name : String) (value? : Option Json) : List (String × Json) :=
  value?.toList.map fun value => (name, value)

/-- The members of a data type. -/
def dataTypeMembers (dataType : DataType) : List (String × Json) :=
  ("dataType", .text dataType.name) :: match dataType with
    | .string length collation =>
      ("length", ofWord length) :: setMember "collation" (collation.map .text)
    | .float precision scale =>
      setMember "precision" (precision.map ofWord) ++ setMember "scale" (scale.map ofWord)
    | _ => []

/-- A default value. -/
def ofDefault : DefaultValue → Json
  | .bool value => .bool value
  | .number value => .real value
  | .text value => .text value

/-- What a join refers to. -/
def ofTarget (target : JoinTarget) : Json :=
  .object [
    ("table", .text target.table.text),
    ("column", .textOrNull (target.column.map (·.text)))]

/-- A foreign key of a junction. -/
def ofJunctionColumn (column : JunctionColumn) : Json :=
  .object [("name", .text column.name), ("referencedColumnName", .text column.referenced)]

/-- A value, or `null` where there is none. -/
def orNull {α : Type} (write : α → Json) (value? : Option α) : Json := value?.elim .null write

/-- A record of a join. -/
def ofJoin (join : Join) : Json :=
  .object [
    ("id", .text join.id.text),
    ("type", .text join.kind.label),
    ("source", .text join.source.text),
    ("target", orNull ofTarget join.target),
    ("onDelete", .text (actionName join.onDelete)),
    ("onUpdate", .text (actionName join.onUpdate)),
    ("through", .textOrNull join.through),
    ("joinColumn", orNull ofJunctionColumn join.joinColumn),
    ("inverseColumn", orNull ofJunctionColumn join.inverseColumn)]

/-- A column. -/
def ofColumn (column : Column) : Json :=
  .object <|
    [("id", .text column.id.text),
      ("tableId", .text column.tableId.text),
      ("name", .text column.name),
      ("storageName", .text column.storageName)] ++
    dataTypeMembers column.dataType ++
    [("primaryKey", .bool column.primaryKey),
      ("unique", .bool column.unique),
      ("index", .bool column.index),
      ("nullable", .bool column.nullable),
      ("autoIncrement", .bool column.autoIncrement),
      ("defaultValue", orNull ofDefault column.defaultValue),
      ("description", .text column.description),
      ("foreignKey", orNull ofJoin column.foreignKey)]

/-- A table. -/
def ofTable (table : Table) : Json :=
  .object [
    ("id", .text table.id.text),
    ("name", .text table.name),
    ("storageName", .text table.storageName),
    ("primaryKeyColumnId", .textOrNull (table.primaryKey.map (·.text))),
    ("description", .text table.description),
    ("columns", .array (table.columns.map ofColumn)),
    ("joins", .array (table.joins.map ofJoin))]

/-- A position. -/
def ofPosition (position : Position) : Json :=
  .object [("x", .real position.x), ("y", .real position.y)]

/-- An edge of the graph. -/
def ofEdge (edge : Edge) : Json :=
  .object [
    ("id", .text edge.id.text),
    ("source", .text edge.source.text),
    ("target", .text edge.target.text),
    ("label", .text edge.label),
    ("sourceMarker", .text (markerName edge.sourceMarker)),
    ("targetMarker", .text (markerName edge.targetMarker)),
    ("isLoop", .bool edge.isLoop),
    ("pending", .bool edge.pending)]

/-- A column on a node of the graph. -/
def ofNodeColumn (column : NodeColumn) : Json :=
  .object [
    ("id", .text column.id.text),
    ("name", .text column.name),
    ("typ", .text column.type),
    ("isPk", .bool column.isKey),
    ("isFk", .bool column.isForeignKey)]

/-- A node of the graph. -/
def ofNode (node : Node) : Json :=
  .object [
    ("id", .text node.id.text),
    ("label", .text node.label),
    ("position", orNull ofPosition node.position),
    ("columns", .array (node.columns.map ofNodeColumn))]

/-- The picture of a schema. -/
def ofGraph (graph : Graph) : Json :=
  .object [
    ("nodes", .array (graph.nodes.map ofNode)),
    ("edges", .array (graph.edges.map ofEdge))]

end ErModel.Exchange
