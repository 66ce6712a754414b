import ErModel.Number.Layout
import ErModel.Number.Numeral

/-!
# The nearest number

A number that is read is the nearest one to what the text says, so only the quotient counts and not
how it is written: digits may be moved across the point, and zeros may be added behind them. A
quotient that is a magnitude is nearest to itself. Together that says of the shortest decimal of a
number, and of its exact expansion, that reading them gives the number back.
-/

namespace ErModel

/-! ## Rounding -/

theorem roundHalfEven_mul (n d : Nat) {c : Nat} (hc : 0 < c) :
    roundHalfEven (n * c) (d * c) = roundHalfEven n d := by
  have hscale : ∀ a b : Nat, 2 * (a * c) < b * c ↔ 2 * a < b := by
    intro a b
    rw [← Nat.mul_assoc]
    exact Nat.mul_lt_mul_right hc
  have hscale' : ∀ a b : Nat, b * c < 2 * (a * c) ↔ b < 2 * a := by
    intro a b
    rw [← Nat.mul_assoc]
    exact Nat.mul_lt_mul_right hc
  unfold roundHalfEven
  simp only [Nat.mul_div_mul_right _ _ hc, Nat.mul_mod_mul_right, hscale, hscale']

/-- A whole quotient is not rounded. -/
theorem roundHalfEven_whole (k : Nat) {d : Nat} (hd : 0 < d) : roundHalfEven (k * d) d = k := by
  unfold roundHalfEven
  simp only [Nat.mul_div_left _ hd, Nat.mul_mod_left]
  rw [if_pos (by omega)]

/-- Less than a half is rounded to nothing. -/
theorem roundHalfEven_small {n d : Nat} (h : 2 * n < d) : roundHalfEven n d = 0 := by
  have hlt : n < d := by omega
  unfold roundHalfEven
  simp only [Nat.div_eq_of_lt hlt, Nat.mod_eq_of_lt hlt]
  rw [if_pos h]

namespace Binary64

theorem one_eq : ∃ k, k = 1074 ∧ one = 2 ^ k := by
  refine ⟨_, rfl, ?_⟩
  unfold one
  rfl

theorem one_pos : 0 < one := by
  obtain ⟨k, -, hone⟩ := one_eq
  rw [hone]
  exact Nat.two_pow_pos k

theorem rankOf_mul (n d : Nat) {c : Nat} (hc : 0 < c) : rankOf (n * c) (d * c) = rankOf n d := by
  have hdiv : n * c / (d * c) = n / d := Nat.mul_div_mul_right _ _ hc
  unfold rankOf
  simp only [hdiv, Nat.mul_right_comm d c, roundHalfEven_mul _ _ hc]

/-- **A magnitude is nearest to itself.** -/
theorem rankOf_units (rank : Nat) {d : Nat} (hd : 0 < d) : rankOf (units rank * d) d = rank := by
  unfold rankOf
  simp only [Nat.mul_div_left _ hd]
  by_cases hsmall : rank < 2 ^ 52
  · have hunits : units rank = rank := if_pos hsmall
    rw [hunits, if_pos (by omega), Nat.zero_mul, Nat.pow_zero, Nat.mul_one, Nat.zero_add]
    exact roundHalfEven_whole rank hd
  -- the magnitude is a 53 bit number, doubled some times
  generalize hm : rank % 2 ^ 52 + 2 ^ 52 = mantissa
  generalize hk : rank / 2 ^ 52 - 1 = doublings
  have hunits : units rank = mantissa * 2 ^ doublings := by
    rw [units, if_neg hsmall, hm, hk]
  have hrank : doublings * 2 ^ 52 + mantissa = rank := by omega
  have hmantissa : mantissa ≠ 0 := by omega
  have hscaled : mantissa * 2 ^ doublings ≠ 0 :=
    Nat.mul_ne_zero hmantissa (Nat.ne_of_gt (Nat.two_pow_pos _))
  have hlog : (mantissa * 2 ^ doublings).log2 = 52 + doublings := by
    rw [Nat.log2_eq_iff hscaled, Nat.add_right_comm, Nat.pow_add, Nat.pow_add]
    exact ⟨Nat.mul_le_mul_right _ (by omega),
      Nat.mul_lt_mul_of_pos_right (by omega) (Nat.two_pow_pos _)⟩
  have hdoublings : (if mantissa * 2 ^ doublings < 2 ^ 53 then 0
      else (mantissa * 2 ^ doublings).log2 - 52) = doublings := by
    split
    · rename_i hlt
      have : (mantissa * 2 ^ doublings).log2 < 53 := (Nat.log2_lt hscaled).mpr hlt
      omega
    · omega
  rw [hunits, hdoublings, Nat.mul_assoc, Nat.mul_comm (2 ^ doublings),
    roundHalfEven_whole _ (Nat.mul_pos hd (Nat.two_pow_pos _))]
  exact hrank

theorem rankOf_zero (d : Nat) : rankOf 0 d = 0 := by
  unfold rankOf
  simp [roundHalfEven]

/-- What is below half of the smallest magnitude is nearest to zero. -/
theorem rankOf_small {n d : Nat} (h : 2 * n < d) : rankOf n d = 0 := by
  have hdiv : n / d = 0 := Nat.div_eq_of_lt (by omega)
  unfold rankOf
  simp only [hdiv]
  rw [if_pos (Nat.two_pow_pos _), Nat.zero_mul, Nat.pow_zero, Nat.mul_one, Nat.zero_add]
  exact roundHalfEven_small h

/-- The rank is at least what the doublings alone make of it. -/
theorem le_rankOf {n d k : Nat} (hk : 53 ≤ k) (h : 2 ^ k ≤ n / d) :
    (k - 52) * 2 ^ 52 ≤ rankOf n d := by
  have hlarge : 2 ^ 53 ≤ n / d := Nat.le_trans (Nat.pow_le_pow_right (by decide) hk) h
  have hlog : k ≤ (n / d).log2 := (Nat.le_log2 (by omega)).mpr h
  have hdoublings : (k - 52) * 2 ^ 52 ≤ ((n / d).log2 - 52) * 2 ^ 52 :=
    Nat.mul_le_mul_right _ (by omega)
  unfold rankOf
  simp only
  rw [if_neg (by omega)]
  exact Nat.le_trans hdoublings (Nat.le_add_right _ _)

/-! ## Quotients -/

theorem ofQuotient_eq_finite {negative : Bool} {n d : Nat} {rank : Fin ranks} :
    ofQuotient negative n d = .finite negative rank ↔ rankOf (n * one) d = rank := by
  unfold ofQuotient
  simp only
  constructor
  · intro h
    split at h
    · cases h
      rfl
    · cases h
  · intro h
    rw [dif_pos (h ▸ rank.isLt)]
    simp only [h]

theorem ofQuotient_mul (negative : Bool) (n d : Nat) {c : Nat} (hc : 0 < c) :
    ofQuotient negative (n * c) (d * c) = ofQuotient negative n d := by
  have hrank : rankOf (n * c * one) (d * c) = rankOf (n * one) d := by
    rw [Nat.mul_right_comm]
    exact rankOf_mul _ _ hc
  unfold ofQuotient
  simp only [hrank]

/-- Equal quotients have the same nearest number. -/
theorem ofQuotient_congr (negative : Bool) {n d n' d' : Nat} (hd : 0 < d) (hd' : 0 < d')
    (h : n * d' = n' * d) : ofQuotient negative n d = ofQuotient negative n' d' :=
  calc ofQuotient negative n d
      = ofQuotient negative (n * d') (d * d') := (ofQuotient_mul negative n d hd').symm
    _ = ofQuotient negative (n' * d) (d' * d) := by rw [h, Nat.mul_comm d d']
    _ = ofQuotient negative n' d' := ofQuotient_mul negative n' d' hd

theorem ofQuotient_large (negative : Bool) {n d k : Nat} (hd : 0 < d) (hk : 1126 ≤ k)
    (h : 2 ^ k * d ≤ n) : ofQuotient negative n d = .infinite negative := by
  obtain ⟨e, he, hone⟩ := one_eq
  have hlarge : 2 ^ (k + e) ≤ n * one / d := by
    rw [Nat.le_div_iff_mul_le hd, Nat.pow_add, ← hone, Nat.mul_right_comm]
    exact Nat.mul_le_mul_right one h
  have hrank := le_rankOf (by omega) hlarge
  exact dif_neg (by unfold ranks; omega)

theorem ofQuotient_small (negative : Bool) {n d : Nat} (h : 2 * (n * one) < d) :
    ofQuotient negative n d = zero negative :=
  ofQuotient_eq_finite.mpr (rankOf_small h)

/-- A whole number of smallest magnitudes. -/
theorem ofQuotient_units (negative : Bool) (rank : Fin ranks) {d : Nat} (hd : 0 < d) :
    ofQuotient negative (units rank * d) (one * d) = .finite negative rank := by
  rw [ofQuotient_eq_finite, Nat.mul_right_comm, Nat.mul_assoc, Nat.mul_comm one]
  exact rankOf_units rank (Nat.mul_pos hd one_pos)

/-! ## Decimals -/

theorem two_pow_le_ten_pow (k : Nat) : 2 ^ (3 * k) ≤ 10 ^ k := by
  rw [Nat.pow_mul]
  exact Nat.pow_le_pow_left (by decide) k

theorem ten_pow_pos (k : Nat) : 0 < 10 ^ k := Nat.pow_pos (by decide)

/-- **A decimal is read as the quotient that it is.** Exponents that are settled before any power is
taken would lead to the same number. -/
theorem ofScientific_eq (negative : Bool) (digits : Nat) (exponent : Int) :
    ofScientific negative digits exponent =
      ofQuotient negative (digits * 10 ^ exponent.toNat) (10 ^ (-exponent).toNat) := by
  unfold ofScientific
  by_cases hzero : digits = 0
  · rw [if_pos hzero, hzero]
    refine (ofQuotient_small negative ?_).symm
    rw [Nat.zero_mul, Nat.zero_mul, Nat.mul_zero]
    exact ten_pow_pos _
  rw [if_neg hzero]
  by_cases hsign : 0 ≤ exponent
  · have hnone : (-exponent).toNat = 0 := by omega
    rw [if_pos hsign, hnone]
    split
    · rfl
    · -- a thousand zeros behind any digit are too much
      have hexponent : 1126 ≤ 3 * exponent.toNat := by omega
      refine (ofQuotient_large negative (by decide) hexponent ?_).symm
      rw [Nat.pow_zero, Nat.mul_one]
      exact Nat.le_trans (two_pow_le_ten_pow _)
        (Nat.le_mul_of_pos_left _ (Nat.pos_of_ne_zero hzero))
  · have hnone : exponent.toNat = 0 := by omega
    rw [if_neg hsign, hnone, Nat.pow_zero, Nat.mul_one]
    split
    · rfl
    · -- the digits are fewer than the places that they are shifted by
      refine (ofQuotient_small negative ?_).symm
      have hdigits : digits < 2 ^ (digits.log2 + 1) := Nat.lt_log2_self
      obtain ⟨e, he, hone⟩ := one_eq
      calc 2 * (digits * one)
          < 2 ^ 1 * (2 ^ (digits.log2 + 1) * 2 ^ e) := by
            refine Nat.mul_lt_mul_of_pos_left ?_ (by decide)
            rw [← hone]
            exact Nat.mul_lt_mul_of_pos_right hdigits one_pos
        _ = 2 ^ (1 + (digits.log2 + 1 + e)) := by
            rw [Nat.pow_add _ 1, Nat.pow_add _ (digits.log2 + 1)]
        _ ≤ 2 ^ (3 * (-exponent).toNat) := Nat.pow_le_pow_right (by decide) (by omega)
        _ ≤ 10 ^ (-exponent).toNat := two_pow_le_ten_pow _

/-- Zeros behind the digits do not count. -/
theorem ofScientific_shift (negative : Bool) (digits k : Nat) (exponent : Int) :
    ofScientific negative (digits * 10 ^ k) (exponent - k) =
      ofScientific negative digits exponent := by
  rw [ofScientific_eq, ofScientific_eq]
  refine ofQuotient_congr negative (ten_pow_pos _) (ten_pow_pos _) ?_
  have hpow : k + (exponent - k).toNat + (-exponent).toNat =
      exponent.toNat + (-(exponent - k)).toNat := by omega
  rw [Nat.mul_assoc, Nat.mul_assoc, Nat.mul_assoc, ← Nat.pow_add, ← Nat.pow_add, ← Nat.pow_add,
    ← Nat.add_assoc, hpow]

/-- The sign does not matter to what is nearest. -/
theorem ofScientific_sign {s : Bool} {digits : Nat} {exponent : Int} {rank : Fin ranks}
    (h : ofScientific s digits exponent = .finite s rank) (negative : Bool) :
    ofScientific negative digits exponent = .finite negative rank := by
  rw [ofScientific_eq, ofQuotient_eq_finite] at h ⊢
  exact h

/-! ## Whole numbers -/

theorem ofQuotient_whole (negative : Bool) {rank : Fin ranks} (hw : units rank % one = 0) :
    ofQuotient negative (units rank / one) 1 = .finite negative rank := by
  have hunits : units rank / one * one = units rank :=
    Nat.div_mul_cancel (Nat.dvd_of_mod_eq_zero hw)
  have hrank := rankOf_units rank.val (d := 1) (by decide)
  rw [ofQuotient_eq_finite, hunits]
  rwa [Nat.mul_one] at hrank

theorem toInt?_eq_some {x : Binary64} {n : Int} (h : x.toInt? = some n) :
    ∃ negative rank, x = .finite negative rank ∧ units rank % one = 0 ∧
      n = if negative then -((units rank / one : Nat) : Int) else (units rank / one : Nat) := by
  unfold toInt? at h
  split at h
  · rename_i negative rank
    split at h
    · rename_i hw
      exact ⟨negative, rank, rfl, hw, (Option.some.inj h).symm⟩
    · cases h
  · cases h

/-- **A whole number is the nearest to its integer.** Only the sign of zero is lost. -/
theorem ofInt_toInt? {x : Binary64} {n : Int} (h : x.toInt? = some n) :
    x.equal (ofInt n) = true := by
  obtain ⟨negative, rank, rfl, hw, rfl⟩ := toInt?_eq_some h
  generalize hn : (if negative then -((units rank / one : Nat) : Int)
    else (units rank / one : Nat)) = n
  have habs : n.natAbs = units rank / one := by
    rw [← hn]
    split
    · rw [Int.natAbs_neg, Int.natAbs_natCast]
    · rw [Int.natAbs_natCast]
  rw [ofInt, habs, ofQuotient_whole _ hw]
  by_cases hsign : negative = decide (n < 0)
  · simp [equal, ← hsign]
  · -- only zero is not negative although it has a minus sign
    have hzero : units rank / one = 0 := by
      cases negative with
      | false =>
          rw [if_neg Bool.false_ne_true] at hn
          rw [← hn] at hsign
          exact absurd (decide_eq_false (by omega)).symm hsign
      | true =>
          rw [if_pos rfl] at hn
          have : ¬ n < 0 := fun hlt => hsign (decide_eq_true hlt).symm
          omega
    have hrank : rank.val = 0 := by
      have hnone := ofQuotient_eq_finite.mp (ofQuotient_whole negative hw)
      rw [hzero, Nat.zero_mul, rankOf_zero] at hnone
      exact hnone.symm
    simp [equal, isZero, hrank]

/-! ## Quotients without rounding -/

/-- The rank of a number that has all of its 53 bits, doubled some times. -/
theorem units_full {m : Nat} (hfull : 2 ^ 52 ≤ m) (hm : m < 2 ^ 53) (doublings : Nat) :
    units (m + doublings * 2 ^ 52) = m * 2 ^ doublings := by
  have hdiv : (m + doublings * 2 ^ 52) / 2 ^ 52 = doublings + 1 := by omega
  have hmod : (m + doublings * 2 ^ 52) % 2 ^ 52 = m - 2 ^ 52 := by omega
  rw [units, if_neg (by omega), hdiv, hmod, Nat.sub_add_cancel hfull, Nat.add_sub_cancel]

/-- A number of at most 53 bits, doubled some times, is a magnitude. -/
theorem exists_units {m : Nat} (hm : m < 2 ^ 53) (doublings : Nat) :
    ∃ rank, units rank = m * 2 ^ doublings ∧ rank < (doublings + 2) * 2 ^ 52 := by
  induction doublings generalizing m with
  | zero =>
      by_cases hfull : 2 ^ 52 ≤ m
      · exact ⟨m, units_full hfull hm 0, by omega⟩
      · exact ⟨m, by rw [units, if_pos (by omega), Nat.pow_zero, Nat.mul_one], by omega⟩
  | succ doublings ih =>
      by_cases hfull : 2 ^ 52 ≤ m
      · exact ⟨_, units_full hfull hm (doublings + 1), by omega⟩
      · -- there is room for one of the doublings
        obtain ⟨rank, hunits, hrank⟩ := ih (m := m * 2) (by omega)
        refine ⟨rank, ?_, Nat.lt_of_lt_of_le hrank (Nat.mul_le_mul_right _ (by omega))⟩
        rw [hunits, Nat.pow_succ', Nat.mul_assoc]

/-- The number nearest to `n` is `n` itself. -/
def Exact (n : Nat) : Prop :=
  ∃ rank : Fin ranks, ofNat n = .finite false rank ∧ units rank = n * one

/-- Numbers of 53 bits are exact, and so are they doubled. -/
theorem exact_double {m : Nat} (hm : m < 2 ^ 53) {doublings : Nat} (hd : doublings ≤ 900) :
    Exact (m * 2 ^ doublings) := by
  obtain ⟨k, hk, hone⟩ := one_eq
  obtain ⟨rank, hunits, hrank⟩ := exists_units hm (doublings + k)
  have hlt : rank < ranks := Nat.lt_of_lt_of_le hrank (Nat.mul_le_mul_right _ (by omega))
  have htotal : units rank = m * 2 ^ doublings * one := by
    rw [hunits, hone, Nat.pow_add, Nat.mul_assoc]
  refine ⟨⟨rank, hlt⟩, ofQuotient_eq_finite.mpr ?_, htotal⟩
  have hself := rankOf_units rank Nat.one_pos
  rwa [htotal, Nat.mul_one] at hself

theorem exact_of_lt {n : Nat} (hn : n < 2 ^ 53) : Exact n := by
  simpa using exact_double hn (Nat.zero_le 900)

theorem exact_ten_pow {k : Nat} (hk : k ≤ 22) : Exact (10 ^ k) := by
  have hten : 10 ^ k = 5 ^ k * 2 ^ k := (Nat.mul_pow 5 2 k).symm ▸ rfl
  have hfive : 5 ^ k < 2 ^ 53 := Nat.lt_of_le_of_lt (Nat.pow_le_pow_right (by decide) hk) (by decide)
  rw [hten]
  exact exact_double hfive (by omega)

/-- **A quotient of exact numbers is rounded once.** -/
theorem div_of_exact {n d : Nat} (hn : Exact n) (hd : Exact d) (hpos : 0 < d) :
    (ofNat n).div (ofNat d) = ofQuotient false n d := by
  obtain ⟨r, hr, hunits⟩ := hn
  obtain ⟨q, hq, hunits'⟩ := hd
  have hne : q.val ≠ 0 := by
    intro hzero
    have hnone : units q = 0 := by rw [hzero]; rfl
    have := Nat.mul_pos hpos one_pos
    omega
  rw [hr, hq]
  show (if q.val = 0 then _ else ofQuotient (false != false) (units r) (units q)) = _
  rw [if_neg hne, hunits, hunits', ofQuotient_mul _ _ _ one_pos]
  rfl

end Binary64

/-! ## The shortest decimal -/

namespace Decimal

open Binary64

/-- The decimal is read as the magnitude of this rank. -/
def Reads (d : Decimal) (rank : Fin ranks) : Prop :=
  ofScientific false d.digits d.exponent = .finite false rank

theorem reads_stripZeros {rank : Fin ranks} {fuel digits : Nat} {exponent : Int}
    (h : Reads ⟨digits, exponent⟩ rank) : Reads (stripZeros fuel digits exponent) rank := by
  induction fuel generalizing digits exponent with
  | zero => exact h
  | succ fuel ih =>
      rw [stripZeros]
      split
      · rename_i hstrip
        refine ih ?_
        -- the last digit was zero
        have hdigits : digits / 10 * 10 ^ 1 = digits := by omega
        have hshift := ofScientific_shift false (digits / 10) 1 (exponent + 1)
        rw [hdigits, Int.natCast_one, Int.add_sub_cancel] at hshift
        exact hshift.symm.trans h
      · exact h

theorem reads_normalize {rank : Fin ranks} {digits : Nat} {exponent : Int}
    (h : Reads ⟨digits, exponent⟩ rank) : Reads (normalize digits exponent) rank :=
  reads_stripZeros h

theorem reads_exact (rank : Fin ranks) : Reads (exact rank) rank := by
  obtain ⟨k, hk, hone⟩ := one_eq
  have hexact : exact rank = ⟨units rank * 5 ^ k, -(k : Int)⟩ := by
    have hexponent : (-1074 : Int) = -(k : Int) := by omega
    unfold exact
    rw [hexponent, ← hk]
  have hten : 10 ^ (- -(k : Int)).toNat = one * 5 ^ k := by
    rw [Int.neg_neg, Int.toNat_natCast, hone, ← Nat.mul_pow]
  have hwhole : (-(k : Int)).toNat = 0 := by omega
  rw [hexact, Reads, ofScientific_eq, hten, hwhole, Nat.pow_zero, Nat.mul_one]
  exact ofQuotient_units false rank (Nat.pow_pos (by decide))

/-- A decimal on the grid is taken only if it reads back. -/
theorem reads_onGrid {tie : Tie} {rank : Fin ranks} {exponent : Int} {d : Decimal}
    (h : onGrid tie rank exponent = some d) : Reads d rank := by
  unfold onGrid at h
  extract_lets n unit below r readsBack nearer at h
  have hnearer : nearer = below ∨ nearer = below + 1 := by
    unfold nearer
    cases tie <;> (repeat' split) <;> omega
  have hreads : ∀ digits, readsBack digits = true → Reads ⟨digits, exponent⟩ rank := by
    intro digits hdigits
    exact of_decide_eq_true (p := ofScientific false digits exponent = .finite false rank) hdigits
  -- what the two candidates are does not matter any more
  clear_value nearer readsBack below
  split at h
  · rename_i hbelow habove
    cases h
    rcases hnearer with he | he
    · rw [he]
      exact hreads below hbelow
    · rw [he]
      exact hreads (below + 1) habove
  · rename_i hbelow _
    cases h
    exact hreads below hbelow
  · rename_i _ habove
    cases h
    exact hreads (below + 1) habove
  · cases h

/-- **The shortest decimal reads back.** -/
theorem reads_shortest (tie : Tie) (rank : Fin ranks) : Reads (shortest tie rank) rank := by
  unfold shortest
  extract_lets first found decimal
  refine reads_normalize ?_
  show Reads decimal rank
  unfold decimal
  cases hfound : found with
  | none => exact reads_exact rank
  | some d =>
      obtain ⟨more, -, hgrid⟩ := List.exists_of_findSome?_eq_some hfound
      exact reads_onGrid hgrid

end Decimal

end ErModel
