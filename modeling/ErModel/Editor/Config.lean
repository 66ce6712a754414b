import ErModel.Exchange.Read

/-!
# Configuration of the editor

Every setting has a usual value, and a configuration names only those that it changes. Settings of
other names are passed over, whatever they hold; none may be named twice.
-/

namespace ErModel

/-- The type of the keys of new tables. -/
inductive KeyType where
  | uuid
  | number
  deriving DecidableEq

/-- The data type of a key. -/
def KeyType.dataType : KeyType → DataType
  | .uuid => .uuid
  | .number => .number

/-- The settings of the editor. -/
structure EditorConfig where
  /-- How long nothing may be submitted before a compile starts, in milliseconds. -/
  debounceMs : Nat
  keyType : KeyType
  /-- How far apart tables without a position are put. -/
  positionStep : Binary64
  onDelete : Action
  onUpdate : Action
  /-- What the names of new tables start with when none is given. -/
  tablePrefix : String
  deriving DecidableEq

namespace EditorConfig

/-- The usual settings. -/
def usual : EditorConfig where
  debounceMs := 500
  keyType := .uuid
  positionStep := .ofNat 10
  onDelete := .cascade
  onUpdate := .cascade
  tablePrefix := "Entity_"

/-- Equality of settings, numbers compared by value. -/
def equal (a b : EditorConfig) : Bool :=
  a.positionStep.equal b.positionStep &&
    { a with positionStep := b.positionStep } = b

/-- How long nothing may be submitted before a compile starts, in nanoseconds. -/
def debounceNanos (config : EditorConfig) : Nat := config.debounceMs * 1000000

/-- The name of a type of keys. -/
def keyTypeName : KeyType → String
  | .uuid => "uuid"
  | .number => "number"

/-- The types of keys by name. -/
def keyTypes : List (String × KeyType) :=
  [KeyType.uuid, .number].map fun type => (keyTypeName type, type)

/-- The names of the settings. -/
def settings : List String :=
  ["debounceMs", "primaryKeyType", "positionStep", "onDelete", "onUpdate", "tableNamePrefix"]

/-- The settings that an object names, each once, with their values. -/
def namedSettings? : List (Option String × Json.Outline) → Option (List (String × Json))
  | [] => some []
  | (none, _) :: _ => none
  | (some name, value) :: rest => do
    let others ← namedSettings? rest
    if name ∈ settings then
      if (others.lookup name).isSome then none
      else return (name, ← value.value? (Json.depthLimit - 1)) :: others
    else return others

/-- The settings that a configuration gives. -/
def record? : Json.Outline → Option Json.Record
  | .object members => Json.Record.mk <$> namedSettings? members
  | .array items => do
    if settings.length < items.length then none
    let values ← items.mapM (·.value? (Json.depthLimit - 1))
    return ⟨settings.zip values⟩
  | _ => none

/-- All settings as an object. -/
def toJson (config : EditorConfig) : Json :=
  .object [
    ("debounceMs", .int config.debounceMs),
    ("primaryKeyType", .text (keyTypeName config.keyType)),
    ("positionStep", .real config.positionStep),
    ("onDelete", .text (Exchange.actionName config.onDelete)),
    ("onUpdate", .text (Exchange.actionName config.onUpdate)),
    ("tableNamePrefix", .text config.tablePrefix)]

/-- Reads a configuration. -/
def read? (source : String) : Option EditorConfig := do
  let fields ← record? (← Json.Outline.read? source)
  return {
    debounceMs := ← fields.withDefault "debounceMs" (Json.below? (2 ^ 64)) usual.debounceMs
    keyType := ← fields.withDefault "primaryKeyType" (Json.choice? keyTypes) usual.keyType
    positionStep := ← fields.withDefault "positionStep" Json.real? usual.positionStep
    onDelete := ← fields.withDefault "onDelete" (Json.choice? Exchange.actions) usual.onDelete
    onUpdate := ← fields.withDefault "onUpdate" (Json.choice? Exchange.actions) usual.onUpdate
    tablePrefix := ← fields.withDefault "tableNamePrefix" Json.text? usual.tablePrefix }

end EditorConfig

end ErModel
