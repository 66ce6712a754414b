import ErModel.Json.Basic
import ErModel.Number.Numeral

/-!
# Numerals of a JSON text

The grammar of a JSON numeral, and the number it stands for. A numeral without point and exponent
that fits 64 bits is a whole number. Any other is read in a quick way that is not always correctly
rounded: as many digits as fit 64 bits are gathered into one whole number, and that is scaled once
by a power of ten. The quick way is part of what a document means, since the last digit of a
position can depend on it.
-/

namespace ErModel.Json

/-- A numeral taken apart. -/
structure Numeral where
  negative : Bool
  /-- The digits before the point. -/
  whole : List Char
  /-- The digits behind the point, if there is one. -/
  fraction : Option (List Char)
  /-- The sign and the digits of the exponent, if there is one. -/
  exponent : Option (Bool × List Char)

/-- The largest number that digits are gathered into. -/
def gatherLimit : Nat := 2 ^ 64 - 1

/-- Appends digits to `n` while the result fits 64 bits; what no longer fits is left over. -/
def gather (n : Nat) : List Char → Nat × List Char
  | [] => (n, [])
  | c :: rest =>
    if 10 * n + digitValue c ≤ gatherLimit then gather (10 * n + digitValue c) rest
    else (n, c :: rest)

/-- `x / 10 ^ places`, divided by `10 ^ 308` as often as needed first. -/
def scaleDown (x : Binary64) (places : Nat) : Binary64 :=
  if places ≤ 308 then x.div (.ofNat (10 ^ places))
  else if x.isZero then x
  else scaleDown (x.div (.ofNat (10 ^ 308))) (places - 308)
termination_by places

/-- `n · 10 ^ exponent`, unless that is too large. -/
def scale? (n : Nat) (exponent : Int) : Option Binary64 :=
  let x := Binary64.ofNat n
  if exponent < 0 then some (scaleDown x exponent.natAbs)
  else if exponent ≤ 308 then
    let scaled := x.mul (.ofNat (10 ^ exponent.toNat))
    if scaled.isFinite then some scaled else none
  else if x.isZero then some x
  else none

/-- The largest exponent that is taken at its word. -/
def exponentLimit : Int := 2 ^ 31 - 1

/-- The magnitude of a numeral that is not a whole number of 64 bits, unless it is too large. -/
def Numeral.magnitude? (numeral : Numeral) : Option Binary64 :=
  let (n, dropped) := gather 0 numeral.whole
  let fraction := numeral.fraction.getD []
  let (n, unread) := gather n fraction
  let start : Int := dropped.length - (fraction.length - unread.length)
  match numeral.exponent with
  | none => scale? n start
  | some (negative, digits) =>
    let exponent : Int := natOfDigits digits
    if exponent ≤ exponentLimit then
      scale? n (max (-exponentLimit - 1)
        (min exponentLimit (if negative then start - exponent else start + exponent)))
    else if n = 0 || negative then some (.zero false)
    else none

/-- The number that a numeral stands for, unless it is too large. Minus zero is no whole number. -/
def Numeral.value? (numeral : Numeral) : Option Number :=
  let n := natOfDigits numeral.whole
  let signed (x : Binary64) : Number := .real (if numeral.negative then x.negate else x)
  if numeral.fraction.isSome || numeral.exponent.isSome || gatherLimit < n then
    numeral.magnitude?.map signed
  else if !numeral.negative then some (.whole n)
  else if n = 0 || 2 ^ 63 < n then some (signed (.ofNat n))
  else some (.whole (-n))

/-- Takes a sign off a text, if one stands there: whether it is a minus, and the rest. -/
def readSign : List Char → Bool × List Char
  | '-' :: rest => (true, rest)
  | '+' :: rest => (false, rest)
  | rest => (false, rest)

/-- Takes an exponent off a text, if one stands there. -/
def readExponent : List Char → Option (Option (Bool × List Char) × List Char)
  | [] => some (none, [])
  | c :: rest =>
    if c = 'e' || c = 'E' then
      let digits := leadingDigits (readSign rest).2
      if digits.isEmpty then none
      else some (some ((readSign rest).1, digits), afterDigits (readSign rest).2)
    else some (none, c :: rest)

/-- Takes a point and the digits behind it off a text, if they stand there. -/
def readFraction : List Char → Option (Option (List Char) × List Char)
  | '.' :: rest =>
    if (leadingDigits rest).isEmpty then none
    else some (some (leadingDigits rest), afterDigits rest)
  | rest => some (none, rest)

/-- Takes a numeral without its sign off a text. A zero at its start stands alone. -/
def readMagnitude (negative : Bool) (source : List Char) : Option (Numeral × List Char) :=
  if (leadingDigits source).isEmpty then none
  else if (leadingDigits source).head? = some '0' && 1 < (leadingDigits source).length then none
  else
    (readFraction (afterDigits source)).bind fun (fraction, rest) =>
      (readExponent rest).map fun (exponent, rest) =>
        (⟨negative, leadingDigits source, fraction, exponent⟩, rest)

/-- Takes a numeral off a text. -/
def readNumeral : List Char → Option (Numeral × List Char)
  | '-' :: rest => readMagnitude true rest
  | rest => readMagnitude false rest

theorem length_readSign_le (source : List Char) : (readSign source).2.length ≤ source.length := by
  unfold readSign
  split <;> simp

theorem length_readExponent_le {source rest : List Char} {e : Option (Bool × List Char)}
    (h : readExponent source = some (e, rest)) : rest.length ≤ source.length := by
  unfold readExponent at h
  split at h
  · simp_all
  · next c tail =>
    split at h
    · simp only [Option.ite_none_left_eq_some, Option.some.injEq, Prod.mk.injEq] at h
      have := length_afterDigits_le (readSign tail).2
      have := length_readSign_le tail
      rw [← h.2.2, List.length_cons]
      omega
    · simp_all

theorem length_readFraction_le {source rest : List Char} {f : Option (List Char)}
    (h : readFraction source = some (f, rest)) : rest.length ≤ source.length := by
  unfold readFraction at h
  split at h
  · next tail =>
    simp only [Option.ite_none_left_eq_some, Option.some.injEq, Prod.mk.injEq] at h
    have := length_afterDigits_le tail
    rw [← h.2.2, List.length_cons]
    omega
  · simp only [Option.some.injEq, Prod.mk.injEq] at h
    exact Nat.le_of_eq (congrArg List.length h.2.symm)

theorem length_readMagnitude_lt {negative : Bool} {source rest : List Char} {n : Numeral}
    (h : readMagnitude negative source = some (n, rest)) : rest.length < source.length := by
  unfold readMagnitude at h
  simp only [Option.ite_none_left_eq_some, Option.bind_eq_some_iff, Option.map_eq_some_iff,
    Prod.exists, Prod.mk.injEq] at h
  obtain ⟨hw, -, f, r₁, h₁, e, r₂, h₂, -, rfl⟩ := h
  have hlen := congrArg List.length (leadingDigits_append_afterDigits source)
  rw [List.length_append] at hlen
  have : (leadingDigits source).length ≠ 0 := by simpa using hw
  have := length_readFraction_le h₁
  have := length_readExponent_le h₂
  omega

/-- A numeral takes at least one character. -/
theorem length_readNumeral_lt {source rest : List Char} {n : Numeral}
    (h : readNumeral source = some (n, rest)) : rest.length < source.length := by
  unfold readNumeral at h
  split at h
  · exact Nat.lt_succ_of_lt (length_readMagnitude_lt h)
  · exact length_readMagnitude_lt h

end ErModel.Json
