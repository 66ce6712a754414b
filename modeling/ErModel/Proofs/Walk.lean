import ErModel.Proofs.Common
import ErModel.Source.Parser

/-!
# Parsing as a walk

The parsers take their tokens off a list, so their types say that they get nearer to its end. Here the
same is done step by step: a walk stands at a position of a list that never changes, looks at the token
there and goes on to the next one. Nothing in its type says that it ends, or that it stays in the list.
It stops with a mark of its own when it looks behind the last token, and when a loop is to go round
again although its last round took no token. So what a walk does not stop at, it does not do.
-/

namespace ErModel.Source

/-- Why a walk stops early. -/
inductive Stop where
  /-- The tokens are no document. -/
  | refused (error : ParseError)
  /-- There is no token at the position. -/
  | past
  /-- A round of a loop took no token, and the loop is to go round again. -/
  | stuck

/-- A walk over tokens. From a position on, it comes to something, or stops; and it ends at a
position. -/
structure Walk (α : Type) where
  run : List Token → Nat → Except Stop α × Nat

/-- What a round of a loop is followed by: another one, or the end of the loop. -/
inductive Round (σ α : Type) where
  | again (state : σ)
  | leave (result : α)

namespace Walk

variable {α β σ : Type}

instance : Monad Walk where
  pure a := ⟨fun _ position => (.ok a, position)⟩
  bind walk next := ⟨fun tokens position =>
    match walk.run tokens position with
    | (.ok a, later) => (next a).run tokens later
    | (.error stop, later) => (.error stop, later)⟩

/-- The token at the position. -/
def peek : Walk Token where
  run tokens position :=
    match tokens[position]? with
    | some token => (.ok token, position)
    | none => (.error .past, position)

/-- The token at the position, which is gone over. No other walk moves on by itself. -/
def advance : Walk Token where
  run tokens position :=
    match tokens[position]? with
    | some token => (.ok token, position + 1)
    | none => (.error .past, position + 1)

def refuse (error : ParseError) : Walk α where
  run _ position := (.error (.refused error), position)

/-- Rounds from a state on, until one leaves the loop. Before the next round the walk must have gone
over a token of the list. -/
def rounds (round : σ → Walk (Round σ α)) (state : σ) (tokens : List Token) (position : Nat) :
    Except Stop α × Nat :=
  match (round state).run tokens position with
  | (.ok (.leave result), later) => (.ok result, later)
  | (.ok (.again next), later) =>
    if position < later ∧ later ≤ tokens.length then rounds round next tokens later
    else (.error .stuck, later)
  | (.error stop, later) => (.error stop, later)
termination_by tokens.length - position

/-- A loop, as a walk. -/
def loop (round : σ → Walk (Round σ α)) (state : σ) : Walk α where
  run := rounds round state

/-! ## The walks -/

def identifier : Walk String := do
  match ← advance with
  | .ident word => return word
  | token => refuse (.unexpected token .identifier)

def name : Walk String := do
  match ← advance with
  | .ident word => return word
  | .str text => return text
  | token => refuse (.unexpected token .name)

def string : Walk String := do
  match ← advance with
  | .str text => return text
  | token => refuse (.unexpected token .string)

def mark (wanted : Token) : Walk Unit := do
  let token ← advance
  if token = wanted then return () else refuse (.unexpected token .mark)

/-- An argument of a type, and the comma or bracket behind it. -/
def typeArgument (args : List Int) : Walk (Round (List Int) (List Int)) := do
  match ← advance with
  | .num n =>
    match ← advance with
    | .comma => return .again (args ++ [n])
    | .rParen => return .leave (args ++ [n])
    | token => refuse (.unexpected token .commaOrParen)
  | token => refuse (.unexpected token .typeArgument)

def typeRef : Walk TypeRef := do
  let word ← identifier
  if (← peek) = .lParen then
    let _ ← advance
    return ⟨word, ← loop typeArgument []⟩
  else return ⟨word, []⟩

/-- A token between the brackets of a call, or the bracket that closes it. -/
def callArgument (text : String) : Walk (Round String String) := do
  match ← peek with
  | .rParen =>
    let _ ← advance
    return .leave text
  | .eof => refuse (.unexpected .eof .closingParen)
  | _ => return .again (text ++ (← advance).inCall)

def defaultValue : Walk Literal := do
  match ← advance with
  | .ident word =>
    if (← peek) = .lParen then
      let _ ← advance
      let args ← loop callArgument ""
      return .ident (word ++ "(" ++ args ++ ")")
    else return .ident word
  | .str text => return .str text
  | .num n => return .int n
  | .decimal x => return .decimal x
  | token => refuse (.unexpected token .defaultValue)

/-- A dot and a word that continue the key of a hint. -/
def hintPart (key : String) : Walk (Round String String) := do
  if (← peek) = .dot then
    let _ ← advance
    return .again (key ++ "." ++ (← identifier))
  else return .leave key

def hintValue : Walk HintValue := do
  match ← advance with
  | .num n => return .int n
  | .str text => return .str text
  | .ident word => return .ident word
  | token => refuse (.unexpected token .hintValue)

def hint : Walk Hint := do
  mark .at
  let key ← loop hintPart (← identifier)
  mark .eq
  return ⟨key, ← hintValue⟩

def optionValue (word : String) : Walk ReferenceOption := do
  match word with
  | "on_delete" => return .onDelete (← identifier)
  | "on_update" => return .onUpdate (← identifier)
  | "through" => return .through (← name)
  | "join" =>
    let column ← name
    mark .arrow
    return .join column (← name)
  | "inverse" =>
    let column ← name
    mark .arrow
    return .inverse column (← name)
  | other => refuse (.unexpected (.ident other) .optionName)

def referenceOption : Walk ReferenceOption := do
  let word ← identifier
  if (← peek) = .eq then
    let _ ← advance
    optionValue word
  else return .kind word

/-- An option of a foreign key, unless the closing bracket is there, and a comma if one follows. -/
def optionPart (options : List ReferenceOption) :
    Walk (Round (List ReferenceOption) (List ReferenceOption)) := do
  if (← peek) = .rBracket then return .leave options
  else
    let option ← referenceOption
    if (← peek) = .comma then
      let _ ← advance
      return .again (options ++ [option])
    else return .leave (options ++ [option])

def reference : Walk Reference := do
  mark .arrow
  let target ← name
  mark .dot
  let column ← name
  if (← peek) = .lBracket then
    let _ ← advance
    let options ← loop optionPart []
    mark .rBracket
    return ⟨target, column, options⟩
  else return ⟨target, column, []⟩

/-- What follows the first word of a modifier, if the word starts one. -/
def modifierAfter? (word : String) : Option (Walk Modifier) :=
  match word with
  | "pk" => some (return .pk)
  | "not" => some do
    let token ← peek
    if token = .ident "null" then
      let _ ← advance
      return .notNull
    else refuse (.unexpected token .null)
  | "null" => some (return .null)
  | "unique" => some (return .unique)
  | "index" => some (return .index)
  | "increment" => some (return .increment)
  | "default" => some (return .default (← defaultValue))
  | "map" => some (return .map (← string))
  | "collate" => some (return .collate (← string))
  | "doc" => some (return .doc (← string))
  | "fk" => some (return .fk (← reference))
  | _ => none

def modifier (found : List Modifier) : Walk (Round (List Modifier) (List Modifier)) := do
  match ← peek with
  | .ident word =>
    match modifierAfter? word with
    | some behind =>
      let _ ← advance
      return .again (found ++ [← behind])
    | none => return .leave found
  | _ => return .leave found

def property : Walk Property := do
  let word ← name
  let type ← typeRef
  return ⟨word, type, ← loop modifier []⟩

/-- What was found of an entity: the names of its properties, its hints and its properties. -/
structure Found where
  names : List String
  hints : List Hint
  properties : List Property

/-- A hint or a property, unless the closing brace is there. -/
def bodyPart (entity : String) (found : Found) :
    Walk (Round Found (List Hint × List Property)) := do
  let token ← peek
  if token = .rBrace then return .leave (found.hints, found.properties)
  else if token = .at then
    let first ← hint
    return .again { found with hints := found.hints ++ [first] }
  else
    let first ← property
    if first.name ∈ found.names then refuse (.duplicateProperty entity first.name)
    else
      return .again { found with
        names := first.name :: found.names
        properties := found.properties ++ [first] }

def entity : Walk Entity := do
  let word ← name
  mark .lBrace
  let parts ← loop (bodyPart word) ⟨[], [], []⟩
  mark .rBrace
  return ⟨word, parts.1, parts.2⟩

/-- An entity, unless the end mark is there. -/
def entityPart (found : List Entity) : Walk (Round (List Entity) (List Entity)) := do
  let token ← peek
  if token = .eof then return .leave found
  else if token = .ident "entity" then
    let _ ← advance
    let first ← entity
    if first.name ∈ found.map (·.name) then refuse (.duplicateEntity first.name)
    else return .again (found ++ [first])
  else refuse (.unexpected token .entity)

def document : Walk Document := do
  return ⟨← loop entityPart []⟩

end Walk

end ErModel.Source
