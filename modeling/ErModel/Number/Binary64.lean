/-!
# Binary64 numbers, exactly

Defaults and positions are binary64 numbers, and what the library writes of them must come out
to the last digit. So the numbers are data here and arithmetic is exact: a finite number is its
sign and the *rank* of its magnitude among all finite magnitudes. Every magnitude is a whole
multiple of the smallest one, `2⁻¹⁰⁷⁴`, and `units` says which, so no rounding happens anywhere
but in `ofQuotient`, which takes a quotient of naturals to the nearest number, ties to even.
-/

-- Powers are those of the core library, also beside a library that has powers of its own.
attribute [instance (1001), default_instance 10001] instPowNat

namespace ErModel

/-- Rounds `n / d` to the nearest natural, a half to the even one. -/
def roundHalfEven (n d : Nat) : Nat :=
  let q := n / d
  let r := n % d
  if 2 * r < d then q else if d < 2 * r then q + 1 else q + q % 2

namespace Binary64

/-- How many finite magnitudes there are. -/
abbrev ranks : Nat := 2047 * 2 ^ 52

/-- How many smallest magnitudes make one. -/
def one : Nat := 2 ^ 1074

/-- The magnitude of a rank, counted in smallest magnitudes: below `2⁵³` the rank itself, and
beyond it `2⁵²` magnitudes for every doubling. -/
def units (rank : Nat) : Nat :=
  if rank < 2 ^ 52 then rank else (rank % 2 ^ 52 + 2 ^ 52) * 2 ^ (rank / 2 ^ 52 - 1)

end Binary64

/-- A binary64 number. All NaNs are one. -/
inductive Binary64 where
  | nan
  | infinite (negative : Bool)
  | finite (negative : Bool) (rank : Fin Binary64.ranks)
  deriving DecidableEq, Inhabited

namespace Binary64

/-- Zero of either sign. -/
def zero (negative : Bool) : Binary64 := .finite negative ⟨0, by decide⟩

/-- The rank nearest to `n / d`, counted in smallest magnitudes; it may exceed the finite ones. -/
def rankOf (n d : Nat) : Nat :=
  let doublings := if n / d < 2 ^ 53 then 0 else Nat.log2 (n / d) - 52
  doublings * 2 ^ 52 + roundHalfEven n (d * 2 ^ doublings)

/-- The number nearest to `n / d`, where `d` is not zero; too large a quotient is infinite. -/
def ofQuotient (negative : Bool) (n d : Nat) : Binary64 :=
  let rank := rankOf (n * one) d
  if h : rank < ranks then .finite negative ⟨rank, h⟩ else .infinite negative

/-- The number nearest to an integer. -/
def ofInt (i : Int) : Binary64 := ofQuotient (i < 0) i.natAbs 1

/-- The number nearest to a natural. -/
def ofNat (n : Nat) : Binary64 := ofQuotient false n 1

/-- The number nearest to `digits · 10 ^ exponent`. Exponents that no binary64 number can follow
are settled before any power is taken. -/
def ofScientific (negative : Bool) (digits : Nat) (exponent : Int) : Binary64 :=
  if digits = 0 then zero negative
  else if 0 ≤ exponent then
    if exponent ≤ 400 then ofQuotient negative (digits * 10 ^ exponent.toNat) 1
    else .infinite negative
  else if -exponent ≤ digits.log2 + 400 then
    ofQuotient negative digits (10 ^ (-exponent).toNat)
  else zero negative

/-- The number with its sign turned. -/
def negate : Binary64 → Binary64
  | .nan => .nan
  | .infinite s => .infinite (!s)
  | .finite s r => .finite (!s) r

/-- The rounded product. -/
def mul : Binary64 → Binary64 → Binary64
  | .nan, _ | _, .nan => .nan
  | .infinite s, .infinite t => .infinite (s != t)
  | .infinite s, .finite t r | .finite s r, .infinite t =>
    if r.val = 0 then .nan else .infinite (s != t)
  | .finite s r, .finite t q => ofQuotient (s != t) (units r * units q) (one * one)

/-- The rounded quotient. -/
def div : Binary64 → Binary64 → Binary64
  | .nan, _ | _, .nan => .nan
  | .infinite _, .infinite _ => .nan
  | .infinite s, .finite t _ => .infinite (s != t)
  | .finite s _, .infinite t => zero (s != t)
  | .finite s r, .finite t q =>
    if q.val = 0 then (if r.val = 0 then .nan else .infinite (s != t))
    else ofQuotient (s != t) (units r) (units q)

/-- Neither infinite nor NaN. -/
def isFinite : Binary64 → Bool
  | .finite .. => true
  | _ => false

/-- Zero, of either sign. -/
def isZero : Binary64 → Bool
  | .finite _ r => r.val = 0
  | _ => false

/-- Numerical equality: the two zeros are equal, and NaN equals nothing. -/
def equal : Binary64 → Binary64 → Bool
  | .nan, _ | _, .nan => false
  | a, b => a = b || (a.isZero && b.isZero)

/-- The integer that the number is, if it is one. -/
def toInt? : Binary64 → Option Int
  | .finite s r =>
    if units r % one = 0 then
      let n : Int := (units r / one : Nat)
      some (if s then -n else n)
    else none
  | _ => none

end Binary64

end ErModel
