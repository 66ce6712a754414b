import ErModel.Conversion

/-!
# The command

What the command line means, apart from the files themselves: which file is asked for, what is made
of its content, and where that goes. The content decides nothing about its own form: a file whose
name ends in `.json` is a document, and any other is source text.
-/

namespace ErModel

/-- What a command asks for. -/
structure Command where
  input : String
  /-- The file to write; without one the answer goes to standard output. -/
  output : Option String
  /-- Whether the picture of the schema is asked for. -/
  graph : Bool
  detail : DetailLevel
  deriving DecidableEq

/-- Why a command fails. -/
inductive CommandError where
  | noInput (program : String)
  | unknownOption (word : String)
  | unknownDetail (word : String)
  | unreadable (path reason : String)
  | unwritable (path reason : String)
  | document (error : DocumentError)
  | compile (error : Source.CompileError)
  deriving DecidableEq

/-- How a program is called. -/
def usage (program : String) : String :=
  "Usage: " ++ program ++ " <input> [options]\n" ++
  "\n" ++
  "A .json document is printed as source text; source text is printed as JSON.\n" ++
  "\n" ++
  "Options:\n" ++
  "  -o, --output <file>   Output file (default: stdout)\n" ++
  "  -d, --detail <level>  Detail level for --graph: tables, pk, pk_fk, all (default: all)\n" ++
  "      --graph           Print the projected node/edge graph instead"

/-- The words for a failure. -/
def CommandError.message : CommandError → String
  | .noInput program => usage program
  | .unknownOption word => "Unknown option: " ++ word
  | .unknownDetail word => "Invalid detail level: " ++ word
  | .unreadable path reason => "Failed to read " ++ path ++ ": " ++ reason
  | .unwritable path reason => "Failed to write " ++ path ++ ": " ++ reason
  | .document error => error.message
  | .compile error => error.message

namespace Command

/-- A command with the options that follow its input. An option that takes a value and is the last
word has none, and means nothing. -/
def withOptions (command : Command) : List String → Except CommandError Command
  | [] => .ok command
  | "--graph" :: rest => { command with graph := true }.withOptions rest
  | ["-o"] | ["--output"] | ["-d"] | ["--detail"] => .ok command
  | "-o" :: path :: rest | "--output" :: path :: rest =>
    { command with output := some path }.withOptions rest
  | "-d" :: word :: rest | "--detail" :: word :: rest =>
    match DetailLevel.ofWord? word with
    | some detail => { command with detail := detail }.withOptions rest
    | none => .error (.unknownDetail word)
  | word :: _ => .error (.unknownOption word)

/-- The command that the words behind a program's name give. -/
def ofWords (program : String) : List String → Except CommandError Command
  | [] => .error (.noInput program)
  | input :: options =>
    { input := input, output := none, graph := false, detail := .all : Command }.withOptions options

/-- Whether the input is a document. -/
def readsDocument (command : Command) : Bool := command.input.endsWith ".json"

/-- The schema in the content of the input. -/
def schema (command : Command) (content : String) (ids : IdSupply) : Except CommandError Schema :=
  if command.readsDocument then
    match Exchange.read content with
    | .ok placed => .ok placed.schema
    | .error error => .error (.document error)
  else
    match (Source.compile content ids).1 with
    | .ok schema => .ok schema
    | .error error => .error (.compile error)

/-- How the command shows a schema. -/
def render (command : Command) (schema : Schema) : String :=
  if command.graph then Exchange.writeGraph (schema.graph .empty command.detail)
  else if command.readsDocument then Source.textOf schema
  else Exchange.writeSchema schema

/-- What the command makes of the content of its input. -/
def answer (command : Command) (content : String) (ids : IdSupply) :
    Except CommandError String := do
  return command.render (← command.schema content ids)

end Command

end ErModel
