import ErModel.Number.Layout
import ErModel.Text.Escaped

/-!
# Tokens of source text
-/

namespace ErModel.Source

/-- The smallest parts of a source text. -/
inductive Token where
  | ident (word : String)
  | str (text : String)
  | num (value : Int)
  | decimal (value : Binary64)
  | lBrace
  | rBrace
  | lParen
  | rParen
  | lBracket
  | rBracket
  | comma
  | eq
  | at
  | dot
  | arrow
  /-- The end of the text. -/
  | eof
  deriving DecidableEq, Inhabited

namespace Token

/-- The name of a kind of token. -/
def kind : Token → String
  | .ident _ => "Ident"
  | .str _ => "Str"
  | .num _ => "Num"
  | .decimal _ => "Decimal"
  | .lBrace => "LBrace"
  | .rBrace => "RBrace"
  | .lParen => "LParen"
  | .rParen => "RParen"
  | .lBracket => "LBracket"
  | .rBracket => "RBracket"
  | .comma => "Comma"
  | .eq => "Eq"
  | .at => "At"
  | .dot => "Dot"
  | .arrow => "Arrow"
  | .eof => "Eof"

/-- What a message shows of what a token holds, if it holds something. -/
def content? : Token → Option String
  | .ident word => some (Text.escape word)
  | .str text => some (Text.escape text)
  | .num value => some (toString value)
  | .decimal value => some (Layout.token.write value)
  | _ => none

/-- How a message shows a token. -/
def describe (token : Token) : String :=
  match token.content? with
  | some content => token.kind ++ "(" ++ content ++ ")"
  | none => token.kind

end Token

end ErModel.Source
