import ErModel.Json.Reader

/-!
# Reading records

Records, choices and plain values out of JSON. A record is an object with a member for every field,
where members of other names mean nothing, or else an array of its fields in their order, of which
the last ones may be missing. A choice is its name, or an object whose one member is that name
with `null`.
-/

namespace ErModel.Json

/-- A text. -/
def text? : Json → Option String
  | .text value => some value
  | _ => none

/-- A truth value. -/
def bool? : Json → Option Bool
  | .bool value => some value
  | _ => none

/-- A number of any kind. -/
def real? : Json → Option Binary64
  | .number n => some n.toBinary64
  | _ => none

/-- A whole number below `limit`. -/
def below? (limit : Nat) : Json → Option Nat
  | .number (.whole (.ofNat n)) => if n < limit then some n else none
  | _ => none

/-- A whole number of 32 bits. -/
def word? (value : Json) : Option UInt32 := (value.below? (2 ^ 32)).map UInt32.ofNat

/-- A list of things that `read` reads. -/
def list? {α : Type} (read : Json → Option α) : Json → Option (List α)
  | .array items => items.mapM read
  | _ => none

/-- One of several named values. -/
def choice? {α : Type} (choices : List (String × α)) : Json → Option α
  | .text name => choices.lookup name
  | .object [(name, .null)] => choices.lookup name
  | _ => none

/-- The fields of a record that are present. -/
structure Record where
  fields : List (String × Json)

/-- The record with the given fields that a value is. -/
def record? (names : List String) : Json → Option Record
  | .object members => some ⟨members⟩
  | .array items => if items.length ≤ names.length then some ⟨names.zip items⟩ else none
  | _ => none

/-- The record that a value is, where an array is none. -/
def members? : Json → Option Record
  | .object members => some ⟨members⟩
  | _ => none

namespace Record

/-- The value of a field, if it is present. -/
def get? (record : Record) (name : String) : Option Json := record.fields.lookup name

/-- A field that must be present. -/
def required {α : Type} (record : Record) (name : String) (read : Json → Option α) : Option α :=
  (record.get? name).bind read

/-- A field with a value to take when it is missing. -/
def withDefault {α : Type} (record : Record) (name : String) (read : Json → Option α)
    (missing : α) : Option α :=
  match record.get? name with
  | none => some missing
  | some value => read value

/-- A field that may be missing or `null`. -/
def optional {α : Type} (record : Record) (name : String) (read : Json → Option α) :
    Option (Option α) :=
  match record.get? name with
  | none | some .null => some none
  | some value => (read value).map some

end Record

end ErModel.Json
