import ErModel.Number.Binary64
import ErModel.Text.Letter

/-!
# Reading numerals

Digits become naturals, and a numeral in decimal notation becomes the nearest binary64 number.
-/

namespace ErModel

/-- The value of a digit. -/
def digitValue (c : Char) : Nat := c.toNat - '0'.toNat

/-- The natural that a row of digits stands for. -/
def natOfDigits (digits : List Char) : Nat :=
  digits.foldl (fun n c => 10 * n + digitValue c) 0

/-- The digits at the start of a text. -/
def leadingDigits (text : List Char) : List Char := text.takeWhile Text.isDigit

/-- What follows the digits at the start of a text. -/
def afterDigits (text : List Char) : List Char := text.dropWhile Text.isDigit

theorem leadingDigits_append_afterDigits (text : List Char) :
    leadingDigits text ++ afterDigits text = text := List.takeWhile_append_dropWhile

theorem length_afterDigits_le (text : List Char) : (afterDigits text).length ≤ text.length :=
  List.Sublist.length_le (List.dropWhile_sublist _)

namespace Binary64

/-- The number nearest to a numeral with `whole` before the point and `fraction` behind it. -/
def ofDigits (negative : Bool) (whole fraction : List Char) (exponent : Int) : Binary64 :=
  ofScientific negative (natOfDigits (whole ++ fraction)) (exponent - fraction.length)

/-- An exponent: a sign if there is one, and digits to the end of the text. -/
def exponentOf? (text : List Char) : Option Int :=
  let (negative, digits) := match text with
    | '-' :: rest => (true, rest)
    | '+' :: rest => (false, rest)
    | _ => (false, text)
  if digits.isEmpty || !digits.all Text.isDigit then none
  else some (if negative then -(natOfDigits digits : Int) else natOfDigits digits)

/-- A magnitude in decimal notation: digits with at most one point among them, and perhaps an
exponent. -/
def magnitudeOf? (negative : Bool) (text : List Char) : Option Binary64 :=
  let whole := leadingDigits text
  let rest := afterDigits text
  let (fraction, rest) := match rest with
    | '.' :: more => (leadingDigits more, afterDigits more)
    | _ => ([], rest)
  if whole.isEmpty && fraction.isEmpty then none
  else match rest with
    | [] => some (ofDigits negative whole fraction 0)
    | c :: more =>
      if c = 'e' || c = 'E' then (exponentOf? more).map (ofDigits negative whole fraction) else none

/-- The number that a text names: a decimal numeral, `inf`, `infinity` or `nan` in any case, with a
sign before it if one is wanted. -/
def ofText? (text : String) : Option Binary64 :=
  let (negative, body) := match text.toList with
    | '-' :: rest => (true, rest)
    | '+' :: rest => (false, rest)
    | all => (false, all)
  let word := String.ofList (body.map Char.toLower)
  if word = "inf" || word = "infinity" then some (.infinite negative)
  else if word = "nan" then some .nan
  else magnitudeOf? negative body

end Binary64

end ErModel
