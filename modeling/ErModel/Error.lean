import ErModel.Exchange.Document
import ErModel.Source.Compile

/-!
# Errors

Everything that can go wrong, and how much of it somebody should see: an edit that makes no sense
any more is dropped quietly, anything else is worth a notice.
-/

namespace ErModel

/-- Anything that can go wrong. -/
inductive SchemaError where
  | edit (error : EditError)
  | compile (error : Source.CompileError)
  | document (error : DocumentError)
  deriving DecidableEq

/-- What an error is about. -/
inductive ErrorKind where
  | invalidIntent
  | invariantViolation
  | synthesisFailure
  | compiler
  | importFormat
  deriving DecidableEq

/-- What a refused edit is about. -/
def EditError.kind : EditError → ErrorKind
  | .violation _ => .invariantViolation
  | .junction _ => .synthesisFailure
  | _ => .invalidIntent

namespace SchemaError

/-- What an error is about. -/
def kind : SchemaError → ErrorKind
  | .edit error => error.kind
  | .compile _ => .compiler
  | .document _ => .importFormat

/-- Whether somebody should see the error. -/
def isVisible (error : SchemaError) : Bool := error.kind ≠ .invalidIntent

/-- The words for an error. -/
def message : SchemaError → String
  | .edit error => error.message
  | .compile error => "Compiler error: " ++ error.message
  | .document error => error.message

end SchemaError

end ErModel
