import ErModel.Number.Binary64

/-!
# Source documents

What a source text says, before anything in it is looked up: entities with their hints, properties
with their types and modifiers.

    entity Post {
        @map = "posts"
        id     uuid pk
        title  string(120)
        userId uuid fk -> User.id [many_to_one, on_delete = restrict]
    }
-/

namespace ErModel.Source

/-- The value of a hint. -/
inductive HintValue where
  | int (value : Int)
  | str (text : String)
  | ident (word : String)
  deriving DecidableEq

/-- The value of a hint as text. -/
def HintValue.asText : HintValue → String
  | .int value => toString value
  | .str text => text
  | .ident word => word

/-- A remark on an entity. -/
structure Hint where
  key : String
  value : HintValue
  deriving DecidableEq

/-- A value as it is written. -/
inductive Literal where
  | int (value : Int)
  | decimal (value : Binary64)
  | str (text : String)
  /-- A bare word or a call, such as `true` or `now()`. -/
  | ident (text : String)
  deriving DecidableEq

/-- A choice in the brackets of a foreign key. -/
inductive ReferenceOption where
  | kind (word : String)
  | onDelete (word : String)
  | onUpdate (word : String)
  | through (name : String)
  | join (name referenced : String)
  | inverse (name referenced : String)
  deriving DecidableEq

/-- What a foreign key says it refers to. -/
structure Reference where
  target : String
  column : String
  options : List ReferenceOption
  deriving DecidableEq

/-- What is said of a property behind its type. -/
inductive Modifier where
  | pk
  | unique
  | index
  | null
  | notNull
  | increment
  | default (value : Literal)
  | map (name : String)
  | collate (name : String)
  | doc (text : String)
  | fk (reference : Reference)
  deriving DecidableEq

/-- The place of a modifier in the order in which they are written. -/
def Modifier.rank : Modifier → Nat
  | .pk => 0
  | .unique => 1
  | .index => 2
  | .null | .notNull => 3
  | .increment => 4
  | .default _ => 5
  | .map _ => 6
  | .collate _ => 7
  | .doc _ => 8
  | .fk _ => 9

/-- A type with its arguments, such as `string(64)`. -/
structure TypeRef where
  name : String
  args : List Int
  deriving DecidableEq

/-- A property of an entity: a column in the making. -/
structure Property where
  name : String
  type : TypeRef
  modifiers : List Modifier
  deriving DecidableEq

/-- The reference of a property that is a foreign key: the first one it has. -/
def Property.reference? (property : Property) : Option Reference :=
  property.modifiers.findSome? fun
    | .fk reference => some reference
    | _ => none

/-- An entity: a table in the making. -/
structure Entity where
  name : String
  hints : List Hint
  properties : List Property
  deriving DecidableEq

/-- The first hint with this key, as text. -/
def Entity.hint? (entity : Entity) (key : String) : Option String :=
  (entity.hints.find? (·.key = key)).map (·.value.asText)

/-- A source text, read. -/
structure Document where
  entities : List Entity
  deriving DecidableEq

end ErModel.Source
