import ErModel.Source.Token
import ErModel.Source.Quoted
import ErModel.Number.Numeral

/-!
# Cutting source text into tokens

White space and comments, from a number sign to the end of the line, stand between tokens and
mean nothing. Every token takes at least one character, so the scan ends on every text; it ends
with an error or with a list that has a single end mark, at its end.
-/

namespace ErModel.Source

/-- Why a text has no tokens. -/
inductive LexError where
  | unexpectedChar (c : Char)
  | unterminatedString
  deriving DecidableEq

/-- The words for an error. -/
def LexError.message : LexError → String
  | .unexpectedChar c => "Unexpected character: " ++ String.singleton c
  | .unterminatedString => "Unterminated string"

/-- A character that a word can start with. -/
def isWordStart (c : Char) : Bool := Text.isLetter c || c = '_'

/-- A character that a word can go on with. -/
def isWordPart (c : Char) : Bool := Text.isLetter c || Text.isNumeral c || c = '_'

mutual
/-- Drops white space and comments at the start. -/
def skipBlank : List Char → List Char
  | [] => []
  | c :: rest =>
    if Text.isBlank c then skipBlank rest
    else if c = '#' then skipComment rest
    else c :: rest
termination_by structural text => text

/-- Drops the rest of a comment, and what means nothing after it. -/
def skipComment : List Char → List Char
  | [] => []
  | c :: rest => if c = '\n' then skipBlank rest else skipComment rest
termination_by structural text => text
end

mutual
theorem length_skipBlank_le : ∀ text : List Char, (skipBlank text).length ≤ text.length
  | [] => Nat.le_refl _
  | c :: rest => by
    rw [skipBlank]
    split
    · exact Nat.le_succ_of_le (length_skipBlank_le rest)
    split
    · exact Nat.le_succ_of_le (length_skipComment_le rest)
    · exact Nat.le_refl _
theorem length_skipComment_le : ∀ text : List Char, (skipComment text).length ≤ text.length
  | [] => Nat.le_refl _
  | c :: rest => by
    rw [skipComment]
    split
    · exact Nat.le_succ_of_le (length_skipBlank_le rest)
    · exact Nat.le_succ_of_le (length_skipComment_le rest)
end

/-- A token, and what follows it in a text of `bound` characters. -/
structure Scanned (bound : Nat) where
  token : Token
  rest : List Char
  shorter : rest.length < bound

/-- The token of a numeral without a point: a whole number if it fits 64 bits. -/
def wholeToken (negative : Bool) (digits : List Char) : Token :=
  let n := natOfDigits digits
  if negative then
    if n ≤ 2 ^ 63 then .num (-n) else .decimal (.ofDigits true digits [] 0)
  else
    if n < 2 ^ 63 then .num n else .decimal (.ofDigits false digits [] 0)

/-- The same token seen from further left. -/
def Scanned.weaken {bound wider : Nat} (scanned : Scanned bound) (h : bound ≤ wider) :
    Scanned wider :=
  ⟨scanned.token, scanned.rest, Nat.lt_of_lt_of_le scanned.shorter h⟩

/-- The numeral that starts with the digit `first`: digits, and perhaps a point and more digits. -/
def scanNumeral (negative : Bool) (first : Char) (rest : List Char) : Scanned (rest.length + 1) :=
  match h : afterDigits rest with
  | '.' :: more =>
    ⟨.decimal (.ofDigits negative (first :: leadingDigits rest) (leadingDigits more) 0),
      afterDigits more, by
        have h₁ := length_afterDigits_le rest
        have h₂ := length_afterDigits_le more
        rw [h, List.length_cons] at h₁
        omega⟩
  | more => ⟨wholeToken negative (first :: leadingDigits rest), more, by
      have := length_afterDigits_le rest
      rw [h] at this
      omega⟩

/-- The token that starts with `c`. -/
def scanToken (c : Char) (rest : List Char) : Except LexError (Scanned (rest.length + 1)) :=
  match c with
  | '{' => .ok ⟨.lBrace, rest, Nat.lt_succ_self _⟩
  | '}' => .ok ⟨.rBrace, rest, Nat.lt_succ_self _⟩
  | '(' => .ok ⟨.lParen, rest, Nat.lt_succ_self _⟩
  | ')' => .ok ⟨.rParen, rest, Nat.lt_succ_self _⟩
  | '[' => .ok ⟨.lBracket, rest, Nat.lt_succ_self _⟩
  | ']' => .ok ⟨.rBracket, rest, Nat.lt_succ_self _⟩
  | ',' => .ok ⟨.comma, rest, Nat.lt_succ_self _⟩
  | '=' => .ok ⟨.eq, rest, Nat.lt_succ_self _⟩
  | '@' => .ok ⟨.at, rest, Nat.lt_succ_self _⟩
  | '.' => .ok ⟨.dot, rest, Nat.lt_succ_self _⟩
  | '-' =>
    match rest with
    | '>' :: more => .ok ⟨.arrow, more, by rw [List.length_cons]; omega⟩
    | d :: more =>
      if Text.isDigit d then .ok ((scanNumeral true d more).weaken (Nat.le_succ _))
      else .error (.unexpectedChar '-')
    | [] => .error (.unexpectedChar '-')
  | '"' =>
    match h : Quoted.decode? rest with
    | some (text, more) =>
      .ok ⟨.str (String.ofList text), more, Nat.lt_succ_of_lt (Quoted.length_decode?_lt h)⟩
    | none => .error .unterminatedString
  | c =>
    if Text.isDigit c then .ok (scanNumeral false c rest)
    else if isWordStart c then
      .ok ⟨.ident (String.ofList (c :: rest.takeWhile isWordPart)), rest.dropWhile isWordPart,
        Nat.lt_succ_of_le (List.Sublist.length_le (List.dropWhile_sublist _))⟩
    else .error (.unexpectedChar c)

/-- The tokens of a text, the end mark last. -/
def scan (text : List Char) : Except LexError (List Token) :=
  match h : skipBlank text with
  | [] => .ok [.eof]
  | c :: rest => do
    let ⟨token, rest', shorter⟩ ← scanToken c rest
    have : rest'.length < text.length := by
      have := length_skipBlank_le text
      rw [h, List.length_cons] at this
      omega
    let tokens ← scan rest'
    return token :: tokens
termination_by text.length

/-- The tokens of a source text. -/
def tokens (source : String) : Except LexError (List Token) := scan source.toList

end ErModel.Source
