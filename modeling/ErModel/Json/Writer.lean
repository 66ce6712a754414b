import ErModel.Json.Basic
import ErModel.Number.Layout

/-!
# Writing JSON

Two layouts: one line without a blank, and indented by two blanks with a line for every item. Text
is written as it is, but for quotes, backslashes and control characters.
-/

namespace ErModel.Json

/-- Characters with a short form of their own: the letter that stands behind a backslash. -/
def shortForms : List (Char × Char) :=
  [('"', '"'), ('\\', '\\'), ('\n', 'n'), ('\r', 'r'), ('\t', 't'), ('\x08', 'b'), ('\x0c', 'f')]

/-- A control character by its number. -/
def writeControl (c : Char) : List Char :=
  ['\\', 'u', '0', '0', Nat.digitChar (c.toNat / 16), Nat.digitChar (c.toNat % 16)]

/-- A character of a quoted text. -/
def writeChar (c : Char) : List Char :=
  match shortForms.lookup c with
  | some letter => ['\\', letter]
  | none => if c.toNat < 0x20 then writeControl c else [c]

/-- A quoted text. -/
def writeText (value : String) : List Char := '"' :: value.toList.flatMap writeChar ++ ['"']

/-- A number. -/
def writeNumber : Number → List Char
  | .whole i => (toString i).toList
  | .real x => (Layout.json.write x).toList

/-- A value that holds no others. -/
def writeLeaf : Json → List Char
  | .null => ['n', 'u', 'l', 'l']
  | .bool true => ['t', 'r', 'u', 'e']
  | .bool false => ['f', 'a', 'l', 's', 'e']
  | .number n => writeNumber n
  | .text value => writeText value
  | .array _ => ['[', ']']
  | .object _ => ['\x7b', '\x7d']

/-- How the parts of a container are set apart. -/
structure Setting where
  /-- What stands before an item at a given depth. -/
  lineStart : Nat → List Char
  /-- What stands between a key and its value. -/
  afterKey : List Char

/-- Everything on one line. -/
def Setting.compact : Setting := ⟨fun _ => [], [':']⟩

/-- A line for every item, indented by two blanks for every open container. -/
def Setting.indented : Setting :=
  ⟨fun depth => '\n' :: List.replicate (2 * depth) ' ', [':', ' ']⟩

mutual
/-- A value inside `depth` containers, with `rest` behind it. -/
def writeOnto (setting : Setting) (depth : Nat) (rest : List Char) : Json → List Char
  | .array (item :: items) =>
    '[' :: setting.lineStart (depth + 1) ++
      writeOnto setting (depth + 1)
        (writeItems setting (depth + 1) (setting.lineStart depth ++ ']' :: rest) items) item
  | .object (member :: members) =>
    '\x7b' :: setting.lineStart (depth + 1) ++
      writeMember setting (depth + 1)
        (writeMembers setting (depth + 1) (setting.lineStart depth ++ '\x7d' :: rest) members)
        member
  | leaf => writeLeaf leaf ++ rest
termination_by structural value => value

/-- The items after the first. -/
def writeItems (setting : Setting) (depth : Nat) (rest : List Char) : List Json → List Char
  | [] => rest
  | item :: items =>
    ',' :: setting.lineStart depth ++
      writeOnto setting depth (writeItems setting depth rest items) item
termination_by structural items => items

/-- The members after the first. -/
def writeMembers (setting : Setting) (depth : Nat) (rest : List Char) :
    List (String × Json) → List Char
  | [] => rest
  | member :: members =>
    ',' :: setting.lineStart depth ++
      writeMember setting depth (writeMembers setting depth rest members) member
termination_by structural members => members

/-- A key and its value. -/
def writeMember (setting : Setting) (depth : Nat) (rest : List Char) : String × Json → List Char
  | (key, value) => writeText key ++ setting.afterKey ++ writeOnto setting depth rest value
termination_by structural member => member
end

/-- The value on one line. -/
def compact (value : Json) : String := String.ofList (writeOnto .compact 0 [] value)

/-- The value indented. -/
def pretty (value : Json) : String := String.ofList (writeOnto .indented 0 [] value)

end ErModel.Json
