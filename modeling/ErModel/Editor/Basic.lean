import ErModel.Editor.Config
import ErModel.Editor.Session
import ErModel.Editor.Worker
import ErModel.Error
import ErModel.Graph.Gesture
import ErModel.Reconcile

/-!
# The editor

The live schema and all that belongs to it: the positions of its tables, what is open for editing,
its source text, and notices for whoever is editing. Events come one at a time, and each either
replaces the schema as a whole or leaves it as it is. Nothing that goes wrong is a failure of the
editor: an edit that makes no sense any more is dropped, and everything else becomes a notice.

A result of the compiler belongs to the schema that it was asked for. A parsed schema is taken only
if the live one has not been replaced since, so an edit is never overwritten by a result that did
not know of it.
-/

namespace ErModel

/-- A message for whoever is editing. -/
structure Notice where
  kind : ErrorKind
  message : String
  deriving DecidableEq

/-- The editor at one moment. -/
structure Editor where
  config : EditorConfig
  schema : Schema
  canvas : Canvas
  session : Session
  /-- The source text as last compiled. -/
  source : Option String
  /-- How often the schema has been replaced. The program counts in 64 bits, which no run uses up;
  here the count has no bound. -/
  revision : Nat
  /-- The revision last handed to the compiler to be written as text. -/
  submitted : Option Nat
  /-- The generation of the last compile event that was looked at (`Worker.generation`). -/
  appliedGeneration : Nat
  notices : List Notice
  ids : IdSupply

namespace Editor

/-- An editor at its start, with a schema. -/
def ofPlaced (config : EditorConfig) (placed : Placed) (ids : IdSupply) : Editor where
  config := config
  schema := placed.schema
  canvas := placed.canvas
  session := .empty
  source := none
  revision := 0
  submitted := none
  appliedGeneration := 0
  notices := []
  ids := ids

/-- An editor at its start, without tables. -/
def start (config : EditorConfig) (ids : IdSupply) : Editor :=
  ofPlaced config ⟨.empty, .empty⟩ ids

/-- Replaces the schema, and forgets what belonged to parts that are gone. -/
def replace (editor : Editor) (next : Schema) : Editor :=
  { editor with
    schema := next
    revision := editor.revision + 1
    canvas := editor.canvas.retain next
    session := editor.session.forgetMissing next }

/-- Makes a notice of an error that somebody should see. -/
def report (editor : Editor) (error : SchemaError) : Editor :=
  if error.isVisible then
    { editor with notices := editor.notices ++ [⟨error.kind, error.message⟩] }
  else editor

/-- Puts a table that was just made on the diagonal. -/
def placeCreated (editor : Editor) : Effect → Editor
  | .tableCreated table =>
    let position := Position.diagonal editor.schema.tables.length editor.config.positionStep
    { editor with canvas := editor.canvas.place table position }
  | _ => editor

/-- Applies an edit; the result is what it made, unless it was refused. -/
def apply (editor : Editor) (intent : Intent) : Editor × Option Effect :=
  let spent := { editor with ids := editor.ids.skip (intent.idCount editor.schema) }
  match editor.schema.apply editor.ids intent with
  | .ok (next, effect) => ((spent.placeCreated effect).replace next, some effect)
  | .error error => (spent.report (.edit error), none)

/-- A name for a table that is given none: the prefix with the first free number that is more than
the number of tables. -/
def unusedTableName (editor : Editor) : String :=
  let candidate (n : Nat) : String := editor.config.tablePrefix ++ toString n
  candidate (firstUnused (editor.schema.tables.map (·.name)) candidate
    (editor.schema.tables.length + 1))

/-- Makes a table; the result is its id, unless it was refused. -/
def createTable (editor : Editor) (name : Option String) : Editor × Option TableId :=
  let wanted := (name.map Text.trim).getD ""
  let name := if wanted.isEmpty then editor.unusedTableName else wanted
  match editor.apply (.createTable name editor.config.keyType.dataType) with
  | (editor, some (.tableCreated table)) => (editor, some table)
  | (editor, _) => (editor, none)

/-- Opens a join in the session. -/
def openJoin (editor : Editor) (join : JoinId) : Editor :=
  match editor.session.openJoin editor.schema join with
  | .ok session => { editor with session := session }
  | .error error => editor.report (.edit error)

/-- Does what a gesture means; the result is whether the schema has changed. -/
def handle (editor : Editor) (gesture : Gesture) : Editor × Bool :=
  match gesture.meaning editor.config.onDelete editor.config.onUpdate with
  | .edit intent =>
    match editor.apply intent with
    | (next, none) => (next, false)
    | (next, some (.joinCreated join)) =>
      (next.openJoin join, !next.schema.equal editor.schema)
    | (next, some _) => (next, !next.schema.equal editor.schema)
  | .select join => (editor.openJoin join, false)
  | .move table position =>
    if (editor.schema.table? table).isSome then
      ({ editor with canvas := editor.canvas.place table position }, false)
    else (editor, false)

/-- Writes the open column back; the result is whether that worked. -/
def commitColumn (editor : Editor) : Editor × Bool :=
  match editor.session.commitColumn editor.schema with
  | .ok (session, next) => ({ editor with session := session }.replace next, true)
  | .error error => (editor.report (.edit error), false)

/-- Configures the open join; the result is whether that worked. -/
def commitJoin (editor : Editor) : Editor × Bool :=
  let (session, result) := editor.session.commitJoin editor.schema editor.ids
  let editor := { editor with session := session, ids := editor.ids.skip 4 }
  match result with
  | .ok (next, _) => (editor.replace next, true)
  | .error error => (editor.report (.edit error), false)

/-- Takes an event of the compiler, unless a newer one was taken before; the result is whether the
schema has changed. -/
def applyCompileEvent (editor : Editor) (event : CompileEvent) : Editor × Bool :=
  if event.generation ≤ editor.appliedGeneration then (editor, false)
  else
    let editor := { editor with appliedGeneration := event.generation }
    match event with
    | .source _ revision text =>
      if revision < editor.revision then (editor, false)
      else ({ editor with source := some text }, false)
    | .parsed _ revision parsed =>
      if revision ≠ editor.revision then (editor, false)
      else match editor.schema.reconcile editor.canvas parsed editor.config.positionStep with
        | .ok (next, canvas) => ({ editor with canvas := canvas }.replace next, true)
        | .error error => (editor.report (.edit error), false)
    | .failed _ error => (editor.report (.compile error), false)

/-- Takes the schema of a document in place of the live one; the result is whether that worked. -/
def takeDocument (editor : Editor) (source : String) : Editor × Bool :=
  match Exchange.read source with
  | .ok placed => ({ editor with canvas := placed.canvas }.replace placed.schema, true)
  | .error error => (editor.report (.document error), false)

/-- The document of tables and joins. -/
def writeSchema (editor : Editor) : String := Exchange.writeSchema editor.schema

/-- The document of nodes and edges. -/
def writeFlow (editor : Editor) : String :=
  Exchange.writeFlow editor.schema editor.canvas editor.config.positionStep

/-- The picture of the schema. -/
def graph (editor : Editor) (detail : DetailLevel) : Graph :=
  editor.schema.graph editor.canvas detail

/-- Takes the notices away. -/
def takeNotices (editor : Editor) : Editor × List Notice :=
  ({ editor with notices := [] }, editor.notices)

/-- Asks for the text of the live schema. -/
def serializeRequest (editor : Editor) : CompileRequest := .serialize editor.revision editor.schema

/-- Asks for the schema of a text that was edited while the live one stood. -/
def parseRequest (editor : Editor) (source : String) : CompileRequest :=
  .parse editor.revision source

/-- Hands the live schema to the worker, unless this revision was handed over before; the result is
the generation of the request. -/
def sync (editor : Editor) (worker : Worker) : Editor × Worker × Option Nat :=
  if editor.submitted = some editor.revision then (editor, worker, none)
  else
    let (worker, generation) := worker.submit editor.serializeRequest
    ({ editor with submitted := some editor.revision }, worker, some generation)

/-- Hands an edited text to the worker; the result is the generation of the request. -/
def submitSource (editor : Editor) (worker : Worker) (source : String) : Worker × Nat :=
  worker.submit (editor.parseRequest source)

end Editor

end ErModel
