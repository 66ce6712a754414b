import ErModel.Number.Layout
import ErModel.Source.Document
import ErModel.Source.Lexer
import ErModel.Text.Width

/-!
# Printing

The one way in which a document is written. Types are aligned on the widest name, modifiers stand
in a fixed order, and a name is quoted unless it would be read back as the same plain word.
-/

namespace ErModel.Source

/-- Words that would be read as the start of a modifier or of an entity. -/
def keywords : List String :=
  ["entity", "pk", "unique", "index", "null", "not", "increment", "default", "map", "collate",
    "doc", "fk"]

/-- Whether the lexer reads a text as one word. -/
def isWord (text : String) : Bool :=
  match text.toList with
  | [] => false
  | first :: rest => isWordStart first && rest.all isWordPart

/-- A name: bare if it is a word without a meaning of its own, and otherwise quoted. -/
def printName (name : String) : String :=
  if name ∉ keywords && isWord name then name else Quoted.encode name

/-- A hint, on a line of its own. -/
def Hint.print (hint : Hint) : String :=
  let value := match hint.value with
    | .int value => toString value
    | .str text => Quoted.encode text
    | .ident word => word
  "    @" ++ hint.key ++ " = " ++ value ++ "\n"

/-- A type. -/
def TypeRef.print (type : TypeRef) : String :=
  if type.args.isEmpty then type.name
  else type.name ++ "(" ++ ", ".intercalate (type.args.map toString) ++ ")"

/-- A decimal, always with a fraction, so that it is read back as one. -/
def printDecimal (x : Binary64) : String :=
  let text := Layout.plain.write x
  if text.contains '.' || !x.isFinite then text else text ++ ".0"

/-- A literal. -/
def Literal.print : Literal → String
  | .int value => toString value
  | .decimal value => printDecimal value
  | .str text => Quoted.encode text
  | .ident text => text

/-- An option of a foreign key. -/
def ReferenceOption.print : ReferenceOption → String
  | .kind word => word
  | .onDelete word => "on_delete = " ++ word
  | .onUpdate word => "on_update = " ++ word
  | .through name => "through = " ++ printName name
  | .join name referenced => "join = " ++ printName name ++ " -> " ++ printName referenced
  | .inverse name referenced => "inverse = " ++ printName name ++ " -> " ++ printName referenced

/-- A foreign key. -/
def Reference.print (reference : Reference) : String :=
  let options :=
    if reference.options.isEmpty then ""
    else " [" ++ ", ".intercalate (reference.options.map (·.print)) ++ "]"
  "fk -> " ++ printName reference.target ++ "." ++ printName reference.column ++ options

/-- A modifier. -/
def Modifier.print : Modifier → String
  | .pk => "pk"
  | .unique => "unique"
  | .index => "index"
  | .null => "null"
  | .notNull => "not null"
  | .increment => "increment"
  | .default value => "default " ++ value.print
  | .map name => "map " ++ Quoted.encode name
  | .collate name => "collate " ++ Quoted.encode name
  | .doc text => "doc " ++ Quoted.encode text
  | .fk reference => reference.print

/-- Modifiers in the order in which they are written; of one rank the first stays first. -/
def ordered (modifiers : List Modifier) : List Modifier :=
  modifiers.mergeSort fun a b => a.rank ≤ b.rank

/-- The property with its modifiers in the order in which they are written. -/
def Property.canonical (property : Property) : Property :=
  { property with modifiers := ordered property.modifiers }

/-- The document with all modifiers in the order in which they are written. -/
def Document.canonical (document : Document) : Document :=
  ⟨document.entities.map fun entity =>
    { entity with properties := entity.properties.map (·.canonical) }⟩

/-- A property on a line of its own, its name filled up to `column` columns. -/
def Property.print (column : Nat) (property : Property) : String :=
  let name := printName property.name
  let gap := String.ofList (List.replicate (column - Text.width name) ' ')
  "    " ++ name ++ gap ++ " " ++ property.type.print ++
    String.join ((ordered property.modifiers).map fun modifier => " " ++ modifier.print) ++ "\n"

/-- An entity. -/
def Entity.print (entity : Entity) : String :=
  let widths := entity.properties.map fun property => Text.width (printName property.name)
  let column := widths.foldl max 0
  "entity " ++ printName entity.name ++ " \x7b\n" ++
    String.join (entity.hints.map (·.print)) ++
    String.join (entity.properties.map (·.print column)) ++ "\x7d\n"

/-- The text of a document. -/
def Document.print (document : Document) : String :=
  "\n".intercalate (document.entities.map (·.print))

end ErModel.Source
