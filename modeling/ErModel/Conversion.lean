import ErModel.Editor.Config
import ErModel.Error
import ErModel.Reconcile
import ErModel.Source.Describe

/-!
# Conversions

Documents into source text and back, text for text. On the way back a previous document may be
given, and then what it names keeps its ids and positions.
-/

namespace ErModel

/-- A result of one step of a conversion, as a result of the whole. -/
def because {ε α : Type} (wrap : ε → SchemaError) : Except ε α → Except SchemaError α
  | .ok value => .ok value
  | .error error => .error (wrap error)

/-- The source text of the schema in a document. -/
def sourceOfDocument (document : String) : Except SchemaError String := do
  let placed ← because .document (Exchange.read document)
  return Source.textOf placed.schema

/-- The schema and the canvas of a previous document, where a blank one is none. -/
def readPrevious (previous : Option String) : Except SchemaError Placed :=
  match previous.filter fun document => !(Text.trim document).isEmpty with
  | some document => because .document (Exchange.read document)
  | none => .ok ⟨.empty, .empty⟩

/-- The document of nodes and edges for a source text. -/
def documentOfSource (source : String) (previous : Option String) (ids : IdSupply) :
    Except SchemaError String := do
  let step := EditorConfig.usual.positionStep
  let parsed ← because .compile (Source.compile source ids).1
  let old ← readPrevious previous
  let (schema, canvas) ← because .edit (old.schema.reconcile old.canvas parsed step)
  return Exchange.writeFlow schema canvas step

end ErModel
