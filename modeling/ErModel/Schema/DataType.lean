import ErModel.Number.Binary64

/-!
# Data types and default values
-/

namespace ErModel

/-- The type of a column. Attributes stand only where they mean something. -/
inductive DataType where
  | string (length : UInt32) (collation : Option String)
  | number
  | date
  | json
  | float (precision scale : Option UInt32)
  | uuid
  | objectId
  deriving DecidableEq, Inhabited

namespace DataType

/-- The length of a string for which none is given. -/
def defaultLength : UInt32 := 255

/-- A string of the usual length. -/
def plainString : DataType := .string defaultLength none

/-- The name of the type, without its attributes. -/
def name : DataType → String
  | .string .. => "string"
  | .number => "number"
  | .date => "date"
  | .json => "json"
  | .float .. => "float"
  | .uuid => "uuid"
  | .objectId => "objectId"

/-- Whether the type is the one of whole numbers. -/
def isNumber : DataType → Bool
  | .number => true
  | _ => false

/-- Whether the type has a scale without a precision. -/
def hasLooseScale : DataType → Bool
  | .float none (some _) => true
  | _ => false

/-- The type without a scale that has no precision beside it. -/
def dropLooseScale : DataType → DataType
  | .float none _ => .float none none
  | other => other

@[simp] theorem hasLooseScale_dropLooseScale (t : DataType) :
    t.dropLooseScale.hasLooseScale = false := by
  cases t with
  | float p s => cases p <;> rfl
  | _ => rfl

theorem dropLooseScale_eq_self {t : DataType} (h : t.hasLooseScale = false) :
    t.dropLooseScale = t := by
  cases t with
  | float p s => cases p <;> cases s <;> simp_all [hasLooseScale, dropLooseScale]
  | _ => rfl

end DataType

/-- The value that a column has when none is given. A text that looks like a call is one. -/
inductive DefaultValue where
  | bool (value : Bool)
  | number (value : Binary64)
  | text (value : String)
  deriving DecidableEq

/-- Equality of default values, numbers compared by value. -/
def DefaultValue.equal : DefaultValue → DefaultValue → Bool
  | .number a, .number b => a.equal b
  | a, b => a = b

end ErModel
