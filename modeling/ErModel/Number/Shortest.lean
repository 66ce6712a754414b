import ErModel.Number.Binary64

/-!
# The shortest decimal

A binary64 number is written with the fewest digits that read back as it, and with the nearest
of those. For one digit, two digits and so on the two decimals on either side of the number are
tried, and reading them back is the test itself. Seventeen digits are always enough; the search
falls back on the exact expansion all the same, so that its answer reads back whatever happens.
-/

namespace ErModel

/-- `digits · 10 ^ exponent`, with no zero at the end of the digits unless there is no other. -/
structure Decimal where
  digits : Nat
  exponent : Int
  deriving DecidableEq

namespace Decimal

/-- How many decimal digits `n` has; zero has one. -/
def countDigits (n : Nat) : Nat := (Nat.toDigits 10 n).length

/-- Drops zeros at the end of the digits, at most `fuel` of them. -/
def stripZeros : Nat → Nat → Int → Decimal
  | 0, digits, exponent => ⟨digits, exponent⟩
  | fuel + 1, digits, exponent =>
    if digits % 10 = 0 ∧ digits ≠ 0 then stripZeros fuel (digits / 10) (exponent + 1)
    else ⟨digits, exponent⟩

/-- The decimal without zeros at its end. -/
def normalize (digits : Nat) (exponent : Int) : Decimal :=
  stripZeros (countDigits digits) digits exponent

/-- Which of two equally near decimals is written. -/
inductive Tie where
  | upper
  | even
  deriving DecidableEq

/-- The position of the first digit of `n / d`: the least `k` with `n / d < 10 ^ k`. -/
def magnitude (n d : Nat) : Int :=
  if d ≤ n then countDigits (n / d) else 1 - (countDigits (d / n) : Int)

/-- The decimal of magnitude `rank` on the grid of multiples of `10 ^ exponent`, if one of the two
on either side of it reads back. -/
def onGrid (tie : Tie) (rank : Fin Binary64.ranks) (exponent : Int) : Option Decimal :=
  let n := Binary64.units rank * 10 ^ (-exponent).toNat
  let d := Binary64.one * 10 ^ exponent.toNat
  let below := n / d
  let r := n % d
  let readsBack (digits : Nat) : Bool :=
    Binary64.ofScientific false digits exponent = .finite false rank
  let nearer :=
    if 2 * r < d then below
    else if d < 2 * r then below + 1
    else match tie with
      | .upper => below + 1
      | .even => below + below % 2
  match readsBack below, readsBack (below + 1) with
  | true, true => some ⟨nearer, exponent⟩
  | true, false => some ⟨below, exponent⟩
  | false, true => some ⟨below + 1, exponent⟩
  | false, false => none

/-- The exact expansion of a magnitude. -/
def exact (rank : Nat) : Decimal := ⟨Binary64.units rank * 5 ^ 1074, -1074⟩

/-- The shortest decimal that reads back as the magnitude of rank `rank`, the nearest if there are
several. -/
def shortest (tie : Tie) (rank : Fin Binary64.ranks) : Decimal :=
  let first := magnitude (Binary64.units rank) Binary64.one
  let found := (List.range 17).findSome? fun more => onGrid tie rank (first - (more + 1 : Nat))
  let decimal := found.getD (exact rank)
  normalize decimal.digits decimal.exponent

end Decimal

end ErModel
