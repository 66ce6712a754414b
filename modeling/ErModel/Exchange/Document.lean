import ErModel.Exchange.Read
import ErModel.Edit.Error
import ErModel.Json.Writer
import ErModel.Schema.Validity

/-!
# Documents

A schema is stored and passed on as a JSON document of one of two shapes: its tables and joins, or
the nodes and edges of its picture, each node holding a table. Joins and edges are there for other
readers; reading a document, the tables alone count. Nothing is taken from a document unless all of
it is in order.
-/

namespace ErModel

/-- Why a document is not taken. -/
inductive DocumentError where
  /-- It is not JSON, or not JSON of the right form. -/
  | malformed
  | neitherShape
  /-- It lists a join that no table holds. -/
  | strayJoin (join : JoinId)
  | misplacedTable (node table : TableId)
  | invalid (violation : Violation)
  deriving DecidableEq

/-- The words for why a document is not taken. -/
def DocumentError.message : DocumentError → String
  | .malformed => "Invalid document: <json>"
  | .neitherShape => "Invalid document: expected either tables/joins or nodes/edges"
  | .strayJoin join => s!"Invalid document: join {join.text} is not carried by any table"
  | .misplacedTable node table =>
    s!"Invalid document: node {node.text} holds table {table.text}"
  | .invalid violation => "Invalid document: " ++ violationMessage violation

/-- A schema with the positions of its tables. -/
structure Placed where
  schema : Schema
  canvas : Canvas
  deriving DecidableEq

namespace Exchange

/-- A value that is there, or a malformed document. -/
def wellFormed {α : Type} : Option α → Except DocumentError α
  | some value => .ok value
  | none => .error .malformed

/-- Takes the tables of a document of tables and joins. -/
def readTables (fields : Json.Record) : Except DocumentError Placed := do
  let tables ← wellFormed (fields.withDefault "tables" (Json.list? table?) [])
  let joins ← wellFormed (fields.withDefault "joins" (Json.list? join?) [])
  let schema : Schema := ⟨tables⟩
  match joins.find? fun join => !schema.containsJoin join.id with
  | some stray => throw (.strayJoin stray.id)
  | none => return ⟨schema, .empty⟩

/-- A node of a document: its id, its position and its table. -/
def node? (value : Json) : Option (TableId × Position × Table) := do
  let fields ← value.record? ["id", "position", "data"]
  return (⟨← fields.required "id" Json.text?⟩, ← fields.required "position" position?,
    ← fields.required "data" table?)

/-- Takes the tables and positions of a document of nodes and edges. -/
def readNodes (fields : Json.Record) : Except DocumentError Placed := do
  let nodes ← wellFormed (fields.withDefault "nodes" (Json.list? node?) [])
  let _ ← wellFormed (fields.withDefault "edges" (Json.list? edge?) [])
  match nodes.find? fun (id, _, table) => id ≠ table.id with
  | some (id, _, table) => throw (.misplacedTable id table.id)
  | none => return {
      schema := ⟨nodes.map (·.2.2)⟩
      canvas := nodes.foldl (fun canvas (id, position, _) => canvas.place id position) .empty }

/-- Takes the schema of a document of either shape. -/
def readPlaced (document : Json) : Except DocumentError Placed :=
  let has (key : String) : Bool := (document.member? key).isSome
  match document with
  | .object members =>
    if has "tables" || has "joins" then readTables ⟨members⟩
    else if has "nodes" || has "edges" then readNodes ⟨members⟩
    else .error .neitherShape
  | _ => .error .neitherShape

/-- Reads a document of either shape. -/
def read (source : String) : Except DocumentError Placed := do
  let placed ← readPlaced (← wellFormed (Json.read? source))
  match placed.schema.validate with
  | .ok () => return placed
  | .error violation => throw (.invalid violation)

/-- The document of tables and joins. -/
def schemaDocument (schema : Schema) : Json :=
  .object [
    ("tables", .array (schema.tables.map ofTable)),
    ("joins", .array (schema.owningJoins.map fun owned => ofJoin owned.join))]

/-- The document of nodes and edges. Tables without a position are put on the diagonal. -/
def flowDocument (schema : Schema) (canvas : Canvas) (step : Binary64) : Json :=
  let node (i : Nat) (table : Table) : Json :=
    .object [
      ("id", .text table.id.text),
      ("position", ofPosition (canvas.positionOr table.id i step)),
      ("data", ofTable table)]
  .object [
    ("nodes", .array (schema.tables.mapIdx node)),
    ("edges", .array (schema.edges.map ofEdge))]

/-- The text of the document of tables and joins. -/
def writeSchema (schema : Schema) : String := (schemaDocument schema).pretty

/-- The text of the document of nodes and edges. -/
def writeFlow (schema : Schema) (canvas : Canvas) (step : Binary64) : String :=
  (flowDocument schema canvas step).pretty

/-- The text of a picture. -/
def writeGraph (graph : Graph) : String := (ofGraph graph).pretty

end Exchange

end ErModel
