import ErModel.Number.Shortest

/-!
# How numbers are laid out

The digits are the same everywhere; what differs from one kind of text to another is where the
point goes, when an exponent is written, and whether a whole number shows that it could have had
a fraction. A `Layout` records those decisions for one kind of text.
-/

namespace ErModel

/-- The decisions that turn the digits of a number into text. -/
structure Layout where
  /-- Which of two equally near decimals is written. -/
  tie : Decimal.Tie
  /-- A number whose point stands left of this place is written with an exponent. -/
  leastPoint : Option Int
  /-- A number whose point stands right of this place is written with an exponent. -/
  mostPoint : Option Int
  /-- Whether whole numbers end in `.0`. -/
  showsFraction : Bool
  /-- Whether exponents of large numbers have a plus sign. -/
  plusSign : Bool

namespace Layout

/-- Every digit is written out: source text and plain messages. -/
def plain : Layout := ⟨.upper, none, none, false, false⟩

/-- Numbers inside a token that a message shows: from 0.0001 and below 10¹⁶ positional, otherwise
with an exponent as in `1e16`. -/
def token : Layout := ⟨.upper, some (-3), some 16, true, false⟩

/-- Numbers of a JSON text: from 0.00001 and below 10¹⁶ positional, otherwise with an exponent as
in `1e+16`. -/
def json : Layout := ⟨.even, some (-4), some 16, true, true⟩

/-- The digits with a point after the first `point` of them; zeros fill the gap on either side. -/
def positional (layout : Layout) (digits : List Char) (point : Int) : List Char :=
  if point ≤ 0 then '0' :: '.' :: List.replicate (-point).toNat '0' ++ digits
  else if digits.length ≤ point.toNat then
    digits ++ List.replicate (point.toNat - digits.length) '0' ++
      (if layout.showsFraction then ['.', '0'] else [])
  else digits.take point.toNat ++ '.' :: digits.drop point.toNat

/-- The digits with a point after the first, and an exponent. -/
def scientific (layout : Layout) (digits : List Char) (exponent : Int) : List Char :=
  let fraction := if digits.length ≤ 1 then [] else '.' :: digits.drop 1
  let sign := if exponent < 0 then ['-'] else if layout.plusSign then ['+'] else []
  digits.take 1 ++ fraction ++ 'e' :: sign ++ Nat.toDigits 10 exponent.natAbs

/-- A decimal laid out, without sign. -/
def decimal (layout : Layout) (d : Decimal) : List Char :=
  let digits := Nat.toDigits 10 d.digits
  let point := digits.length + d.exponent
  if layout.leastPoint.all (· ≤ point) && layout.mostPoint.all (point ≤ ·) then
    layout.positional digits point
  else layout.scientific digits (point - 1)

/-- A number laid out. -/
def write (layout : Layout) : Binary64 → String
  | .nan => "NaN"
  | .infinite negative => if negative then "-inf" else "inf"
  | .finite negative rank =>
    let magnitude :=
      if rank.val = 0 then '0' :: (if layout.showsFraction then ['.', '0'] else [])
      else layout.decimal (Decimal.shortest layout.tie rank)
    String.ofList (if negative then '-' :: magnitude else magnitude)

end Layout

end ErModel
