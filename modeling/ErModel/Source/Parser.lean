import ErModel.Source.Document
import ErModel.Source.Lexer

/-!
# Parsing

Every parser takes tokens and gives what it read together with the tokens that follow, and a proof
that those are fewer than a bound in its type. A parser that needs at least one token has the
number of its tokens as bound, one that may need none has one more; so each loop visibly gets
nearer to the end, and a missing bracket cannot keep it going.
-/

namespace ErModel.Source

/-- What a parser would have gone on with. -/
inductive Wanted where
  | identifier
  | name
  | string
  | mark
  | entity
  | null
  | typeArgument
  | commaOrParen
  | closingParen
  | defaultValue
  | hintValue
  | optionName
  deriving DecidableEq

/-- The words for what was wanted. -/
def Wanted.text : Wanted → String
  | .identifier => "identifier"
  | .name => "name"
  | .string => "string"
  | .mark => "specific token"
  | .entity => "entity"
  | .null => "null"
  | .typeArgument => "type argument"
  | .commaOrParen => ", or )"
  | .closingParen => ")"
  | .defaultValue => "default value"
  | .hintValue => "hint value"
  | .optionName => "on_delete, on_update, through, join or inverse"

/-- Why a text is not a document. -/
inductive ParseError where
  | lex (error : LexError)
  | unexpected (token : Token) (wanted : Wanted)
  | duplicateEntity (name : String)
  | duplicateProperty (entity property : String)
  deriving DecidableEq

/-- The words for an error. -/
def ParseError.message : ParseError → String
  | .lex error => "Lex error: " ++ error.message
  | .unexpected token wanted =>
    "Unexpected token: " ++ token.describe ++ ", expected " ++ wanted.text
  | .duplicateEntity name => "Duplicate entity: " ++ name
  | .duplicateProperty entity property =>
    "Duplicate property " ++ property ++ " in entity " ++ entity

/-- What a parser read, and the tokens behind it: fewer than `bound`. -/
structure Parsed (α : Type) (bound : Nat) where
  value : α
  rest : List Token
  shorter : rest.length < bound

/-- What a parser gives. -/
abbrev Parse (α : Type) (bound : Nat) := Except ParseError (Parsed α bound)

/-- The next token; behind the last one the text is at its end. -/
def peek (tokens : List Token) : Token := tokens.headD .eof

/-- Refuses the next token. -/
def refuse {α : Type} {bound : Nat} (tokens : List Token) (wanted : Wanted) : Parse α bound :=
  .error (.unexpected (peek tokens) wanted)

/-- A plain word. -/
def identifier : (tokens : List Token) → Parse String tokens.length
  | .ident word :: rest => .ok ⟨word, rest, Nat.lt_succ_self _⟩
  | tokens => refuse tokens .identifier

/-- A name: a plain word, or any text between quotes. -/
def name : (tokens : List Token) → Parse String tokens.length
  | .ident word :: rest => .ok ⟨word, rest, Nat.lt_succ_self _⟩
  | .str text :: rest => .ok ⟨text, rest, Nat.lt_succ_self _⟩
  | tokens => refuse tokens .name

/-- A text between quotes. -/
def string : (tokens : List Token) → Parse String tokens.length
  | .str text :: rest => .ok ⟨text, rest, Nat.lt_succ_self _⟩
  | tokens => refuse tokens .string

/-- The given mark and no other token. -/
def mark (wanted : Token) : (tokens : List Token) → Parse Unit tokens.length
  | [] => refuse [] .mark
  | token :: rest =>
    if token = wanted then .ok ⟨(), rest, Nat.lt_succ_self _⟩ else refuse (token :: rest) .mark

/-! ## Types and values -/

/-- The arguments of a type up to the closing bracket, at least one. -/
def typeArguments : (tokens : List Token) → Parse (List Int) tokens.length
  | .num n :: .comma :: rest => do
    let ⟨more, rest', h⟩ ← typeArguments rest
    return ⟨n :: more, rest', by simp only [List.length_cons]; omega⟩
  | .num n :: .rParen :: rest => .ok ⟨[n], rest, by simp only [List.length_cons]; omega⟩
  | .num _ :: rest => refuse rest .commaOrParen
  | tokens => refuse tokens .typeArgument

/-- A type. -/
def typeRef (tokens : List Token) : Parse TypeRef tokens.length := do
  let ⟨word, rest₁, h₁⟩ ← identifier tokens
  if peek rest₁ = .lParen then
    let ⟨_, rest₂, h₂⟩ ← mark .lParen rest₁
    let ⟨args, rest₃, h₃⟩ ← typeArguments rest₂
    return ⟨⟨word, args⟩, rest₃, by omega⟩
  else return ⟨⟨word, []⟩, rest₁, h₁⟩

/-- What a token adds to the text of a call. -/
def Token.inCall : Token → String
  | .ident word => word
  | .num n => toString n
  | .decimal x => Layout.plain.write x
  | .str text => "\"" ++ text ++ "\""
  | .comma => ", "
  | _ => ""

/-- The arguments of a call up to the closing bracket, as text. -/
def callArguments : (tokens : List Token) → Parse String tokens.length
  | [] => refuse [] .closingParen
  | .eof :: rest => refuse (.eof :: rest) .closingParen
  | .rParen :: rest => .ok ⟨"", rest, Nat.lt_succ_self _⟩
  | token :: rest => do
    let ⟨more, rest', h⟩ ← callArguments rest
    return ⟨token.inCall ++ more, rest', Nat.lt_succ_of_lt h⟩

/-- A default value: a literal, a word or a call. -/
def defaultValue : (tokens : List Token) → Parse Literal tokens.length
  | .ident word :: .lParen :: rest => do
    let ⟨args, rest', h⟩ ← callArguments rest
    return ⟨.ident (word ++ "(" ++ args ++ ")"), rest', by simp only [List.length_cons]; omega⟩
  | .ident word :: rest => .ok ⟨.ident word, rest, Nat.lt_succ_self _⟩
  | .str text :: rest => .ok ⟨.str text, rest, Nat.lt_succ_self _⟩
  | .num n :: rest => .ok ⟨.int n, rest, Nat.lt_succ_self _⟩
  | .decimal x :: rest => .ok ⟨.decimal x, rest, Nat.lt_succ_self _⟩
  | tokens => refuse tokens .defaultValue

/-! ## Hints -/

/-- The dots and words that continue the key of a hint. -/
def hintPath : (tokens : List Token) → Parse String (tokens.length + 1)
  | .dot :: .ident word :: rest => do
    let ⟨more, rest', h⟩ ← hintPath rest
    return ⟨"." ++ word ++ more, rest', by simp only [List.length_cons]; omega⟩
  | .dot :: rest => refuse rest .identifier
  | tokens => .ok ⟨"", tokens, Nat.lt_succ_self _⟩

/-- The value of a hint. -/
def hintValue : (tokens : List Token) → Parse HintValue tokens.length
  | .num n :: rest => .ok ⟨.int n, rest, Nat.lt_succ_self _⟩
  | .str text :: rest => .ok ⟨.str text, rest, Nat.lt_succ_self _⟩
  | .ident word :: rest => .ok ⟨.ident word, rest, Nat.lt_succ_self _⟩
  | tokens => refuse tokens .hintValue

/-- A hint behind its `@`. -/
def hint (tokens : List Token) : Parse Hint tokens.length := do
  let ⟨word, rest₁, h₁⟩ ← identifier tokens
  let ⟨path, rest₂, h₂⟩ ← hintPath rest₁
  let ⟨_, rest₃, h₃⟩ ← mark .eq rest₂
  let ⟨value, rest₄, h₄⟩ ← hintValue rest₃
  return ⟨⟨word ++ path, value⟩, rest₄, by omega⟩

/-! ## Foreign keys -/

/-- The value of an option of a foreign key, behind `word =`. -/
def optionValue (word : String) (tokens : List Token) :
    Parse ReferenceOption (tokens.length + 1) :=
  match word with
  | "on_delete" => do
    let ⟨action, rest, h⟩ ← identifier tokens
    return ⟨.onDelete action, rest, Nat.lt_succ_of_lt h⟩
  | "on_update" => do
    let ⟨action, rest, h⟩ ← identifier tokens
    return ⟨.onUpdate action, rest, Nat.lt_succ_of_lt h⟩
  | "through" => do
    let ⟨table, rest, h⟩ ← name tokens
    return ⟨.through table, rest, Nat.lt_succ_of_lt h⟩
  | "join" => do
    let ⟨column, rest₁, h₁⟩ ← name tokens
    let ⟨_, rest₂, h₂⟩ ← mark .arrow rest₁
    let ⟨referenced, rest₃, h₃⟩ ← name rest₂
    return ⟨.join column referenced, rest₃, by omega⟩
  | "inverse" => do
    let ⟨column, rest₁, h₁⟩ ← name tokens
    let ⟨_, rest₂, h₂⟩ ← mark .arrow rest₁
    let ⟨referenced, rest₃, h₃⟩ ← name rest₂
    return ⟨.inverse column referenced, rest₃, by omega⟩
  | other => .error (.unexpected (.ident other) .optionName)

/-- An option of a foreign key: a word, or a word with a value. -/
def referenceOption (tokens : List Token) : Parse ReferenceOption tokens.length := do
  let ⟨word, rest₁, h₁⟩ ← identifier tokens
  if peek rest₁ = .eq then
    let ⟨_, rest₂, h₂⟩ ← mark .eq rest₁
    let ⟨option, rest₃, h₃⟩ ← optionValue word rest₂
    return ⟨option, rest₃, by omega⟩
  else return ⟨.kind word, rest₁, h₁⟩

/-- The options of a foreign key up to the closing bracket. A comma may stand before it. -/
def referenceOptions (tokens : List Token) : Parse (List ReferenceOption) tokens.length :=
  match tokens with
  | .rBracket :: rest => .ok ⟨[], rest, Nat.lt_succ_self _⟩
  | tokens => do
    let ⟨option, rest₁, h₁⟩ ← referenceOption tokens
    if peek rest₁ = .comma then
      let ⟨_, rest₂, h₂⟩ ← mark .comma rest₁
      let ⟨options, rest₃, h₃⟩ ← referenceOptions rest₂
      return ⟨option :: options, rest₃, by omega⟩
    else
      let ⟨_, rest₂, h₂⟩ ← mark .rBracket rest₁
      return ⟨[option], rest₂, by omega⟩
termination_by tokens.length

/-- A foreign key behind `fk`: an arrow, what it refers to, and perhaps options in brackets. -/
def reference (tokens : List Token) : Parse Reference tokens.length := do
  let ⟨_, rest₁, h₁⟩ ← mark .arrow tokens
  let ⟨target, rest₂, h₂⟩ ← name rest₁
  let ⟨_, rest₃, h₃⟩ ← mark .dot rest₂
  let ⟨column, rest₄, h₄⟩ ← name rest₃
  if peek rest₄ = .lBracket then
    let ⟨_, rest₅, h₅⟩ ← mark .lBracket rest₄
    let ⟨options, rest₆, h₆⟩ ← referenceOptions rest₅
    return ⟨⟨target, column, options⟩, rest₆, by omega⟩
  else return ⟨⟨target, column, []⟩, rest₄, by omega⟩

/-! ## Properties -/

/-- What follows the first word of a modifier, if the word starts one. -/
def modifierAfter? (word : String) (tokens : List Token) :
    Option (Parse Modifier (tokens.length + 1)) :=
  match word with
  | "pk" => some (.ok ⟨.pk, tokens, Nat.lt_succ_self _⟩)
  | "not" => some <|
    match tokens with
    | .ident "null" :: rest =>
      .ok ⟨.notNull, rest, by simp only [List.length_cons]; omega⟩
    | tokens => refuse tokens .null
  | "null" => some (.ok ⟨.null, tokens, Nat.lt_succ_self _⟩)
  | "unique" => some (.ok ⟨.unique, tokens, Nat.lt_succ_self _⟩)
  | "index" => some (.ok ⟨.index, tokens, Nat.lt_succ_self _⟩)
  | "increment" => some (.ok ⟨.increment, tokens, Nat.lt_succ_self _⟩)
  | "default" => some do
    let ⟨value, rest, h⟩ ← defaultValue tokens
    return ⟨.default value, rest, Nat.lt_succ_of_lt h⟩
  | "map" => some do
    let ⟨text, rest, h⟩ ← string tokens
    return ⟨.map text, rest, Nat.lt_succ_of_lt h⟩
  | "collate" => some do
    let ⟨text, rest, h⟩ ← string tokens
    return ⟨.collate text, rest, Nat.lt_succ_of_lt h⟩
  | "doc" => some do
    let ⟨text, rest, h⟩ ← string tokens
    return ⟨.doc text, rest, Nat.lt_succ_of_lt h⟩
  | "fk" => some do
    let ⟨value, rest, h⟩ ← reference tokens
    return ⟨.fk value, rest, Nat.lt_succ_of_lt h⟩
  | _ => none

/-- Modifiers, as long as words that start one follow. -/
def modifiers (tokens : List Token) : Parse (List Modifier) (tokens.length + 1) :=
  match tokens with
  | .ident word :: rest =>
    match modifierAfter? word rest with
    | none => .ok ⟨[], .ident word :: rest, Nat.lt_succ_self _⟩
    | some parse => do
      let ⟨modifier, rest', h⟩ ← parse
      have : rest'.length < (Token.ident word :: rest).length := h
      let ⟨more, rest'', h'⟩ ← modifiers rest'
      return ⟨modifier :: more, rest'', by simp only [List.length_cons]; omega⟩
  | tokens => .ok ⟨[], tokens, Nat.lt_succ_self _⟩
termination_by tokens.length
decreasing_by exact this

/-- A property: its name, its type and its modifiers. -/
def property (tokens : List Token) : Parse Property tokens.length := do
  let ⟨word, rest₁, h₁⟩ ← name tokens
  let ⟨type, rest₂, h₂⟩ ← typeRef rest₁
  let ⟨modifiers, rest₃, h₃⟩ ← modifiers rest₂
  return ⟨⟨word, type, modifiers⟩, rest₃, by omega⟩

/-! ## Entities -/

/-- The hints and properties of an entity up to the closing brace. No property has a name that was
seen before. -/
def body (entity : String) (seen : List String) (tokens : List Token) :
    Parse (List Hint × List Property) tokens.length :=
  match tokens with
  | .rBrace :: rest => .ok ⟨([], []), rest, Nat.lt_succ_self _⟩
  | .at :: rest => do
    let ⟨first, rest', h⟩ ← hint rest
    have : rest'.length < (Token.at :: rest).length := Nat.lt_succ_of_lt h
    let ⟨(hints, properties), rest'', h'⟩ ← body entity seen rest'
    return ⟨(first :: hints, properties), rest'', by omega⟩
  | tokens => do
    let ⟨first, rest, h⟩ ← property tokens
    if first.name ∈ seen then throw (.duplicateProperty entity first.name)
    let ⟨(hints, properties), rest', h'⟩ ← body entity (first.name :: seen) rest
    return ⟨(hints, first :: properties), rest', by omega⟩
termination_by tokens.length
decreasing_by
  · exact this
  · exact h

/-- An entity behind its keyword. -/
def entity (tokens : List Token) : Parse Entity tokens.length := do
  let ⟨word, rest₁, h₁⟩ ← name tokens
  let ⟨_, rest₂, h₂⟩ ← mark .lBrace rest₁
  let ⟨(hints, properties), rest₃, h₃⟩ ← body word [] rest₂
  return ⟨⟨word, hints, properties⟩, rest₃, by omega⟩

/-- Entities up to the end. None has a name that was seen before. -/
def entities (seen : List String) (tokens : List Token) : Except ParseError (List Entity) :=
  match tokens with
  | [] | .eof :: _ => .ok []
  | .ident "entity" :: rest => do
    let ⟨first, rest', h⟩ ← entity rest
    if first.name ∈ seen then throw (.duplicateEntity first.name)
    have : rest'.length < (Token.ident "entity" :: rest).length := Nat.lt_succ_of_lt h
    let more ← entities (first.name :: seen) rest'
    return first :: more
  | tokens => .error (.unexpected (peek tokens) .entity)
termination_by tokens.length
decreasing_by exact this

/-- The document that a source text is. -/
def parse (source : String) : Except ParseError Document :=
  match tokens source with
  | .error error => .error (.lex error)
  | .ok tokens => Document.mk <$> entities [] tokens

end ErModel.Source
