import ErModel.Number.Binary64

/-!
# JSON values

Documents, configurations and graphs are exchanged as JSON. Whole numbers are kept apart from
the others, because some places take only those: `5.0` is a number but not a length.
-/

namespace ErModel

/-- A JSON number: a whole one of at most 64 bits, or a binary64 number. -/
inductive Json.Number where
  | whole (value : Int)
  | real (value : Binary64)
  deriving DecidableEq

/-- A JSON value. The members of an object keep their order. -/
inductive Json where
  | null
  | bool (value : Bool)
  | number (value : Json.Number)
  | text (value : String)
  | array (items : List Json)
  | object (members : List (String × Json))
  deriving Inhabited

namespace Json

/-- A whole number as a value. -/
def int (i : Int) : Json := .number (.whole i)

/-- A binary64 number as a value; one that is not finite has no JSON form and becomes `null`. -/
def real (x : Binary64) : Json := if x.isFinite then .number (.real x) else .null

/-- A text, or `null` where there is none. -/
def textOrNull (text? : Option String) : Json := text?.elim .null .text

/-- The binary64 number nearest to a JSON number. -/
def Number.toBinary64 : Number → Binary64
  | .whole i => Binary64.ofInt i
  | .real x => x

/-- The member of an object under a key. -/
def member? (key : String) : Json → Option Json
  | .object members => members.lookup key
  | _ => none

/-- Puts a member into a list of members: in place of the one with the same key, or at the end. -/
def put (key : String) (value : Json) : List (String × Json) → List (String × Json)
  | [] => [(key, value)]
  | (k, v) :: rest => if k = key then (key, value) :: rest else (k, v) :: put key value rest

end Json

end ErModel
