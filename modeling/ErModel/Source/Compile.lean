import ErModel.Edit.Joins
import ErModel.Source.Parser

/-!
# From documents to schemas

Compiling a document makes a table of each entity and a join of each foreign key. Everything gets
new ids. Tables come first, so that a foreign key may refer to an entity further down; then the
foreign keys in the order in which they are written. A many-to-many key is no column: its property
is dropped, the join stays pending until all other joins stand, and becomes a junction table then.
-/

namespace ErModel.Source

/-- What is wrong with an entity. -/
inductive EntityFault where
  | unknownTable (name : String)
  | unknownColumn (table column : String)
  | noKey
  | severalKeys (count : Nat)
  | badArgument (type : String) (value : Int)
  | collation (type : String)
  | unknownType (name : String)
  | unknownKind (word : String)
  | unknownAction (word : String)
  | edit (error : EditError)
  deriving DecidableEq

/-- The words for a fault of an entity. -/
def EntityFault.message : EntityFault → String
  | .unknownTable name => s!"unknown fk target table {name}"
  | .unknownColumn table column => s!"unknown fk target column {table}.{column}"
  | .noKey => "no pk column"
  | .severalKeys count => s!"{count} pk columns"
  | .badArgument type value => s!"invalid {type} argument {value}"
  | .collation type => s!"collate only applies to string, not {type}"
  | .unknownType name => s!"unknown type {name}"
  | .unknownKind word => s!"unknown join kind {word}"
  | .unknownAction word => s!"unknown referential action {word}"
  | .edit error => error.message

/-- Why a source text does not compile. -/
inductive CompileError where
  | parse (error : ParseError)
  | entity (name : String) (fault : EntityFault)
  | invalid (violation : Violation)
  | unavailable (reason : String)
  deriving DecidableEq

/-- The words for an error. -/
def CompileError.message : CompileError → String
  | .parse error => "Parse error: " ++ error.message
  | .entity name fault => "Entity " ++ name ++ ": " ++ fault.message
  | .invalid violation => "Compiled schema is invalid: " ++ violationMessage violation
  | .unavailable reason => "Compiler unavailable: " ++ reason

/-! ## Words -/

/-- The kind of join that a word names. -/
def kindOf? : String → Option JoinKind
  | "one_to_one" => some .oneToOne
  | "one_to_many" => some .oneToMany
  | "many_to_one" => some .manyToOne
  | "many_to_many" => some .manyToMany
  | _ => none

/-- The word for a kind of join. -/
def kindWord : JoinKind → String
  | .oneToOne => "one_to_one"
  | .oneToMany => "one_to_many"
  | .manyToOne => "many_to_one"
  | .manyToMany => "many_to_many"

/-- The action that a word names. -/
def actionOf? : String → Option Action
  | "cascade" => some .cascade
  | "set_null" => some .setNull
  | "restrict" => some .restrict
  | _ => none

/-- The word for an action. -/
def actionWord : Action → String
  | .cascade => "cascade"
  | .setNull => "set_null"
  | .restrict => "restrict"

@[simp] theorem kindOf?_kindWord (kind : JoinKind) : kindOf? (kindWord kind) = some kind := by
  cases kind <;> rfl

@[simp] theorem actionOf?_actionWord (action : Action) :
    actionOf? (actionWord action) = some action := by
  cases action <;> rfl

/-! ## Columns -/

/-- An argument of a type as a 32-bit number, if it is given. -/
def TypeRef.argument? (type : TypeRef) (i : Nat) : Except EntityFault (Option UInt32) :=
  match type.args[i]? with
  | none => .ok none
  | some n =>
    if 0 ≤ n ∧ n < 2 ^ 32 then .ok (some (UInt32.ofNat n.toNat))
    else .error (.badArgument type.name n)

/-- The data type that a type names. Only strings have a collation. -/
def TypeRef.dataType (type : TypeRef) (collation : Option String) :
    Except EntityFault DataType := do
  if collation.isSome && type.name ≠ "string" then throw (.collation type.name)
  match type.name with
  | "string" => return .string ((← type.argument? 0).getD DataType.defaultLength) collation
  | "number" | "int" => return .number
  | "date" => return .date
  | "json" => return .json
  | "float" =>
    let precision ← type.argument? 0
    return .float precision (← type.argument? 1)
  | "uuid" => return .uuid
  | "objectId" => return .objectId
  | other => throw (.unknownType other)

/-- The default value that a literal stands for. -/
def Literal.defaultValue : Literal → DefaultValue
  | .int n => .number (.ofInt n)
  | .decimal x => .number x
  | .str text => .text text
  | .ident "true" => .bool true
  | .ident "false" => .bool false
  | .ident text => .text text

/-- A column with what one modifier says of it. -/
def Modifier.apply (column : Column) : Modifier → Column
  | .pk => { column with primaryKey := true }
  | .unique => { column with unique := true }
  | .index => { column with index := true }
  | .null => { column with nullable := true }
  | .notNull => { column with nullable := false }
  | .increment => { column with autoIncrement := true }
  | .default value => { column with defaultValue := some value.defaultValue }
  | .map name => { column with storageName := name }
  | .doc text => { column with description := text }
  | .collate _ | .fk _ => column

/-- The collation that modifiers give; the last one counts. -/
def collationOf (modifiers : List Modifier) : Option String :=
  (modifiers.filterMap fun | .collate name => some name | _ => none).getLast?

/-- The column that a property describes, without its foreign key. -/
def Property.column (property : Property) (id : ColumnId) (table : TableId) :
    Except EntityFault Column := do
  let said := property.modifiers.foldl Modifier.apply (.plain id table property.name)
  let dataType ← property.type.dataType (collationOf property.modifiers)
  return { said with dataType := dataType }.normalize

/-- The columns that properties describe; the first has the id in place `place`. -/
def columnsOf (table : TableId) (ids : IdSupply) (place : Nat) :
    List Property → Except EntityFault (List Column)
  | [] => .ok []
  | property :: rest => do
    let column ← property.column (ids.columnId place) table
    return column :: (← columnsOf table ids (place + 1) rest)

/-! ## Tables -/

/-- The id of the one key column. Only a table without columns needs none. -/
def keyOf (columns : List Column) : Except EntityFault (Option ColumnId) :=
  match columns.filter (·.primaryKey) with
  | [] => if columns.isEmpty then .ok none else .error .noKey
  | [key] => .ok (some key.id)
  | keys => .error (.severalKeys keys.length)

/-- The table that an entity describes, without joins. -/
def Entity.table (entity : Entity) (ids : IdSupply) : Except EntityFault Table := do
  let columns ← columnsOf (ids.tableId 0) ids 1 entity.properties
  let key ← keyOf columns
  return {
    id := ids.tableId 0
    name := entity.name
    storageName := (entity.hint? "map").getD ""
    primaryKey := key
    description := (entity.hint? "doc").getD ""
    columns := columns
    joins := [] }

/-- How many ids the table of an entity takes. -/
def Entity.idCount (entity : Entity) : Nat := 1 + entity.properties.length

/-- Names the entity in which a fault is. -/
def inEntity {α : Type} (name : String) : Except EntityFault α → Except CompileError α
  | .ok value => .ok value
  | .error fault => .error (.entity name fault)

/-- The tables that entities describe, without joins. -/
def tablesOf (ids : IdSupply) : List Entity → Except CompileError (List Table)
  | [] => .ok []
  | entity :: rest => do
    let table ← inEntity entity.name (entity.table ids)
    return table :: (← tablesOf (ids.skip entity.idCount) rest)

/-! ## Foreign keys -/

/-- What the options of a foreign key choose. -/
structure ReferenceChoice where
  kind : JoinKind := .manyToOne
  onDelete : Action := .cascade
  onUpdate : Action := .cascade
  through : Option String := none
  joinColumn : Option JunctionColumn := none
  inverseColumn : Option JunctionColumn := none

/-- The choice with one more option; a later option overrides an earlier one. -/
def ReferenceChoice.choose (choice : ReferenceChoice) :
    ReferenceOption → Except EntityFault ReferenceChoice
  | .kind word =>
    match kindOf? word with
    | some kind => .ok { choice with kind := kind }
    | none => .error (.unknownKind word)
  | .onDelete word =>
    match actionOf? word with
    | some action => .ok { choice with onDelete := action }
    | none => .error (.unknownAction word)
  | .onUpdate word =>
    match actionOf? word with
    | some action => .ok { choice with onUpdate := action }
    | none => .error (.unknownAction word)
  | .through name => .ok { choice with through := some name }
  | .join name referenced => .ok { choice with joinColumn := some ⟨name, referenced⟩ }
  | .inverse name referenced => .ok { choice with inverseColumn := some ⟨name, referenced⟩ }

/-- A many-to-many join that waits for its junction table. -/
structure Deferred where
  entity : String
  join : JoinId
  config : JoinConfig

/-- How far the foreign keys of a document are linked. -/
structure Linking where
  tables : List Table
  /-- The pairs of tables that joins have been declared between, once for each join. -/
  declared : List (TableId × TableId)
  /-- Mirrors, with the tables that will hold them. -/
  mirrors : List (TableId × Join)
  deferred : List Deferred

/-- Changes the table with this id. -/
def Linking.modifyTable (linking : Linking) (id : TableId) (f : Table → Table) : Linking :=
  { linking with tables := modifyFirst (·.id = id) f linking.tables }

/-- The table that a name stands for in a document: of equal names the last. -/
def Linking.target? (linking : Linking) (name : String) : Option Table :=
  linking.tables.reverse.find? (·.name = name)

/-- Links the foreign key of a property of the table `source`. -/
def Linking.link (linking : Linking) (entity : String) (source : TableId) (property : String)
    (reference : Reference) : Except EntityFault Linking := do
  let some target := linking.target? reference.target
    | throw (.unknownTable reference.target)
  let some column := target.columnNamed? reference.column
    | throw (.unknownColumn reference.target reference.column)
  let choice ← reference.options.foldlM ReferenceChoice.choose {}
  let pair := (source, target.id)
  let config : JoinConfig :=
    { target := ⟨target.id, some column.id⟩
      kind := choice.kind
      onDelete := choice.onDelete
      onUpdate := choice.onUpdate
      through := choice.through
      joinColumn := choice.joinColumn
      inverseColumn := choice.inverseColumn }
  let join : Join :=
    { id := JoinId.nth source target.id (linking.declared.count pair)
      kind := config.kind
      source := source
      target := some config.target
      onDelete := config.onDelete
      onUpdate := config.onUpdate
      through := config.through
      joinColumn := config.joinColumn
      inverseColumn := config.inverseColumn }
  let linking :=
    { linking with
      declared := pair :: linking.declared
      mirrors :=
        if target.id = source then linking.mirrors
        else linking.mirrors ++ [(target.id, join.mirror)] }
  if join.kind = .manyToMany then
    let inverse := config.inverseColumn.getD ⟨foreignKeyName reference.target, reference.column⟩
    let config := { config with inverseColumn := some inverse }
    let cleared := linking.modifyTable source fun t =>
      { t with columns := t.columns.filter (·.name ≠ property), joins := t.joins ++ [join] }
    return { cleared with deferred := linking.deferred ++ [⟨entity, join.id, config⟩] }
  else
    return linking.modifyTable source fun t =>
      { t with columns := modifyFirst (·.name = property)
                 (fun c => { c with foreignKey := some join }) t.columns }

/-- Links the foreign keys of properties. -/
def Linking.linkAll (entity : String) (source : TableId) :
    Linking → List Property → Except EntityFault Linking
  | linking, [] => .ok linking
  | linking, property :: rest =>
    match property.reference? with
    | none => linking.linkAll entity source rest
    | some reference => do
      let next ← linking.link entity source property.name reference
      next.linkAll entity source rest

/-- Links the foreign keys of entities, each beside the id of its table. -/
def Linking.linkEntities : Linking → List (Entity × TableId) → Except CompileError Linking
  | linking, [] => .ok linking
  | linking, (entity, source) :: rest => do
    let next ← inEntity entity.name (linking.linkAll entity.name source entity.properties)
    next.linkEntities rest

/-- The schema of all tables, with the mirrors in their places. -/
def Linking.schema (linking : Linking) : Schema :=
  linking.mirrors.foldl (fun schema (table, mirror) => schema.modifyTable table (·.addJoin mirror))
    ⟨linking.tables⟩

/-- Makes the junction tables that wait. -/
def makeJunctions (ids : IdSupply) (schema : Schema) :
    List Deferred → Except CompileError Schema
  | [] => .ok schema
  | deferred :: rest =>
    match schema.configureJoin ids deferred.join deferred.config with
    | .ok (next, _) => makeJunctions (ids.skip 4) next rest
    | .error error => .error (.entity deferred.entity (.edit error))

-- Sums start at the zero of the core library.
attribute [local instance (1001)] Zero.ofOfNat0

/-- How many ids the tables of a document take. -/
def Document.tableIdCount (document : Document) : Nat :=
  (document.entities.map (·.idCount)).sum

/-- How many ids compiling a document may take. -/
def Document.idCount (document : Document) : Nat :=
  document.tableIdCount + 4 * (document.entities.map (·.properties.length)).sum

/-- The schema that a document describes. -/
def Document.schema (document : Document) (ids : IdSupply) : Except CompileError Schema := do
  let tables ← tablesOf ids document.entities
  let sources := document.entities.zip (tables.map (·.id))
  let linking ← Linking.linkEntities ⟨tables, [], [], []⟩ sources
  match linking.schema.validate with
  | .error violation => throw (.invalid violation)
  | .ok () => makeJunctions (ids.skip document.tableIdCount) linking.schema linking.deferred

/-- The document that a source text is. -/
def readDocument (source : String) : Except CompileError Document :=
  match parse source with
  | .ok document => .ok document
  | .error error => .error (.parse error)

/-- The schema that a source text describes, and what is left of the supply. -/
def compile (source : String) (ids : IdSupply) : Except CompileError Schema × IdSupply :=
  match readDocument source with
  | .ok document => (document.schema ids, ids.skip document.idCount)
  | .error error => (.error error, ids)

end ErModel.Source
