import ErModel.Source.Compile
import ErModel.Source.Printer

/-!
# From schemas to source text

Every schema has a document that describes it. What compiling would supply by itself is left out:
a string's usual length, a cascade, a stored name that is just the name. Pending joins have no
form in a document.
-/

namespace ErModel.Source

/-- The type of a column, without the arguments that need not be written. -/
def typeRefOf (dataType : DataType) : TypeRef :=
  let args := match dataType with
    | .string length _ => if length = DataType.defaultLength then [] else [length]
    | .float (some precision) scale => precision :: scale.toList
    | _ => []
  ⟨dataType.name, args.map fun n => (n.toNat : Int)⟩

/-- The largest size of a whole number that is written without a fraction, and one more. -/
def wholeLimit : Nat := 10 ^ 15

/-- A default value as it is written. A text that looks like a call stays bare. -/
def literalOf : DefaultValue → Literal
  | .bool true => .ident "true"
  | .bool false => .ident "false"
  | .number x =>
    match x.toInt? with
    | some n => if n.natAbs < wholeLimit then .int n else .decimal x
    | none => .decimal x
  | .text text =>
    if text.contains '(' && text.endsWith ')' then .ident text else .str text

/-- The foreign key of a join as it is written, if what the join refers to is there. -/
def referenceOf? (schema : Schema) (join : Join) : Option Reference := do
  let target ← join.target
  let table ← schema.table? target.table
  let column ← table.column? (← target.column)
  let onDelete := if join.onDelete = .cascade then [] else [.onDelete (actionWord join.onDelete)]
  let onUpdate := if join.onUpdate = .cascade then [] else [.onUpdate (actionWord join.onUpdate)]
  let through := join.through.toList.map .through
  return ⟨table.name, column.name,
    .kind (kindWord join.kind) :: onDelete ++ onUpdate ++ through⟩

/-- A modifier that stands only if a flag does. -/
def flag (holds : Bool) (modifier : Modifier) : List Modifier := if holds then [modifier] else []

/-- The modifiers of a column. -/
def modifiersOf (schema : Schema) (column : Column) : List Modifier :=
  let collation := match column.dataType with
    | .string _ (some name) => [.collate name]
    | _ => []
  flag column.primaryKey .pk ++ flag column.unique .unique ++ flag column.index .index ++
    flag column.nullable .null ++ flag column.autoIncrement .increment ++
    column.defaultValue.toList.map (fun value => .default (literalOf value)) ++
    flag (column.storageName ≠ "" && column.storageName ≠ column.name) (.map column.storageName) ++
    collation ++
    flag (column.description ≠ "") (.doc column.description) ++
    (column.foreignKey.bind (referenceOf? schema)).toList.map .fk

/-- The property that describes a column. -/
def propertyOf (schema : Schema) (column : Column) : Property :=
  ⟨column.name, typeRefOf column.dataType, modifiersOf schema column⟩

/-- The entity that describes a table. -/
def entityOf (schema : Schema) (table : Table) : Entity :=
  let map := if table.storageName ≠ "" ∧ table.storageName ≠ table.name then
    [⟨"map", .str table.storageName⟩] else []
  let doc := if table.description ≠ "" then [⟨"doc", .str table.description⟩] else []
  ⟨table.name, map ++ doc, table.columns.map (propertyOf schema)⟩

/-- The document that describes a schema. -/
def documentOf (schema : Schema) : Document := ⟨schema.tables.map (entityOf schema)⟩

/-- The source text of a schema. -/
def textOf (schema : Schema) : String := (documentOf schema).print

/-- The source text of a schema, if it is valid. -/
def textOfValid (schema : Schema) : Except CompileError String :=
  match schema.validate with
  | .ok () => .ok (textOf schema)
  | .error violation => .error (.invalid violation)

end ErModel.Source
