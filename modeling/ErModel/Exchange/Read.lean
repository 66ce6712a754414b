import ErModel.Exchange.Write
import ErModel.Json.Record

/-!
# Schemas out of JSON

Every reader undoes the writer of the same name, and takes records with fields missing as far as
those have a usual value.
-/

namespace ErModel.Exchange

open Json (Record)

/-- The names of the data types, in the order in which they may also be given by number. -/
def dataTypeNames : List String :=
  ["string", "number", "date", "json", "float", "uuid", "objectId"]

/-- The name of a data type, given by name or number. -/
def dataTypeName? : Json → Option String
  | .text name => some name
  | .number (.whole (.ofNat n)) => dataTypeNames[n]?
  | _ => none

/-- The data type that is given among other fields. -/
def dataType? (fields : Record) : Option DataType := do
  match ← fields.required "dataType" dataTypeName? with
  | "string" =>
    let length ← fields.withDefault "length" Json.word? DataType.defaultLength
    return .string length (← fields.optional "collation" Json.text?)
  | "number" => return .number
  | "date" => return .date
  | "json" => return .json
  | "float" =>
    let precision ← fields.optional "precision" Json.word?
    return .float precision (← fields.optional "scale" Json.word?)
  | "uuid" => return .uuid
  | "objectId" => return .objectId
  | _ => none

/-- A default value. -/
def default? : Json → Option DefaultValue
  | .bool value => some (.bool value)
  | .number n => some (.number n.toBinary64)
  | .text value => some (.text value)
  | _ => none

/-- What a join refers to. -/
def target? (value : Json) : Option JoinTarget := do
  let fields ← value.record? ["table", "column"]
  let table ← fields.required "table" Json.text?
  let column ← fields.optional "column" Json.text?
  return ⟨⟨table⟩, column.map ColumnId.mk⟩

/-- A foreign key of a junction. -/
def junctionColumn? (value : Json) : Option JunctionColumn := do
  let fields ← value.record? ["name", "referencedColumnName"]
  return ⟨← fields.required "name" Json.text?,
    ← fields.required "referencedColumnName" Json.text?⟩

/-- A record of a join. -/
def join? (value : Json) : Option Join := do
  let fields ← value.record? ["id", "type", "source", "target", "onDelete", "onUpdate", "through",
    "joinColumn", "inverseColumn"]
  return {
    id := ⟨← fields.required "id" Json.text?⟩
    kind := ← fields.required "type" (Json.choice? kinds)
    source := ⟨← fields.required "source" Json.text?⟩
    target := ← fields.optional "target" target?
    onDelete := ← fields.required "onDelete" (Json.choice? actions)
    onUpdate := ← fields.required "onUpdate" (Json.choice? actions)
    through := ← fields.optional "through" Json.text?
    joinColumn := ← fields.optional "joinColumn" junctionColumn?
    inverseColumn := ← fields.optional "inverseColumn" junctionColumn? }

/-- A column. -/
def column? (value : Json) : Option Column := do
  let fields ← value.members?
  return {
    id := ⟨← fields.required "id" Json.text?⟩
    tableId := ⟨← fields.required "tableId" Json.text?⟩
    name := ← fields.required "name" Json.text?
    storageName := ← fields.withDefault "storageName" Json.text? ""
    dataType := ← dataType? fields
    primaryKey := ← fields.withDefault "primaryKey" Json.bool? false
    unique := ← fields.withDefault "unique" Json.bool? false
    index := ← fields.withDefault "index" Json.bool? false
    nullable := ← fields.withDefault "nullable" Json.bool? false
    autoIncrement := ← fields.withDefault "autoIncrement" Json.bool? false
    defaultValue := ← fields.optional "defaultValue" default?
    description := ← fields.withDefault "description" Json.text? ""
    foreignKey := ← fields.optional "foreignKey" join? }

/-- A table. -/
def table? (value : Json) : Option Table := do
  let fields ← value.record? ["id", "name", "storageName", "primaryKeyColumnId", "description",
    "columns", "joins"]
  return {
    id := ⟨← fields.required "id" Json.text?⟩
    name := ← fields.required "name" Json.text?
    storageName := ← fields.withDefault "storageName" Json.text? ""
    primaryKey := (← fields.optional "primaryKeyColumnId" Json.text?).map ColumnId.mk
    description := ← fields.withDefault "description" Json.text? ""
    columns := ← fields.withDefault "columns" (Json.list? column?) []
    joins := ← fields.withDefault "joins" (Json.list? join?) [] }

/-- A position. -/
def position? (value : Json) : Option Position := do
  let fields ← value.record? ["x", "y"]
  return ⟨← fields.required "x" Json.real?, ← fields.required "y" Json.real?⟩

/-- The end of an edge. -/
def marker? : Json → Option Marker := Json.choice? [("one", .one), ("many", .many)]

/-- An edge of the graph. -/
def edge? (value : Json) : Option Edge := do
  let fields ← value.record? ["id", "source", "target", "label", "sourceMarker", "targetMarker",
    "isLoop", "pending"]
  return {
    id := ⟨← fields.required "id" Json.text?⟩
    source := ⟨← fields.required "source" Json.text?⟩
    target := ⟨← fields.required "target" Json.text?⟩
    label := ← fields.required "label" Json.text?
    sourceMarker := ← fields.required "sourceMarker" marker?
    targetMarker := ← fields.required "targetMarker" marker?
    isLoop := ← fields.required "isLoop" Json.bool?
    pending := ← fields.required "pending" Json.bool? }

end ErModel.Exchange
