import ErModel.Command

/-!
# The program

Reads what a command asks for, and writes the answer. Everything between is in `Command`.
-/

namespace ErModel

/-- The system's words for an error. -/
def systemReason : IO.Error → String
  | .noFileOrDirectory .. => "No such file or directory (os error 2)"
  | .permissionDenied _ code details | .inappropriateType _ code details
  | .invalidArgument _ code details | .alreadyExists _ code details
  | .resourceExhausted _ code details =>
    details ++ " (os error " ++ toString code ++ ")"
  | error => toString error

/-- A supply of ids that no other run has. -/
def newSupply : IO IdSupply := do
  let bytes ← IO.getRandomBytes 10
  let digits := bytes.toList.flatMap fun byte =>
    [Nat.digitChar (byte.toNat / 16), Nat.digitChar (byte.toNat % 16)]
  return ⟨String.ofList digits, 0⟩

/-- The text of a file. -/
def readText (path : String) : IO (Except CommandError String) := do
  try
    match String.fromUTF8? (← IO.FS.readBinFile path) with
    | some content => return .ok content
    | none => return .error (.unreadable path "stream did not contain valid UTF-8")
  catch error => return .error (.unreadable path (systemReason error))

/-- Makes a text the content of a file. -/
def writeText (path content : String) : IO (Except CommandError Unit) := do
  try
    IO.FS.writeFile path content
    return .ok ()
  catch error => return .error (.unwritable path (systemReason error))

/-- Carries a command out. -/
def Command.carryOut (command : Command) : IO (Except CommandError Unit) := do
  match ← readText command.input with
  | .error error => return .error error
  | .ok content =>
    match command.answer content (← newSupply), command.output with
    | .error error, _ => return .error error
    | .ok answer, some path => writeText path answer
    | .ok answer, none =>
      IO.print answer
      return .ok ()

end ErModel

/-- Carries out the command that the arguments give. -/
def main (args : List String) : IO UInt32 := do
  let result ← match ErModel.Command.ofWords "ermodel" args with
    | .error error => pure (.error error)
    | .ok command => command.carryOut
  match result with
  | .ok () => return 0
  | .error error =>
    IO.eprintln error.message
    return 1
