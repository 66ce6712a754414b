import ErModel.Proofs.Nearest
import ErModel.Source.Printer

/-!
# Numbers in source text

A number is written as a sign if it is negative, digits, and for a decimal a point and more digits.
Reading the digits gives the number back: the layout only decides where the point goes, and what it
adds are zeros.
-/

namespace ErModel

/-! ## Digits -/

theorem natOfDigits_eq (digits : List Char) : natOfDigits digits = Nat.ofDigitChars 10 digits 0 :=
  rfl

theorem natOfDigits_toDigits (n : Nat) : natOfDigits (Nat.toDigits 10 n) = n := by
  rw [natOfDigits_eq, Nat.ofDigitChars_ten_toDigits]

theorem natOfDigits_zeros_append (k : Nat) (digits : List Char) :
    natOfDigits (List.replicate k '0' ++ digits) = natOfDigits digits := by
  rw [natOfDigits_eq, Nat.ofDigitChars_append, Nat.ofDigitChars_replicate_zero, Nat.mul_zero]
  rfl

theorem natOfDigits_append_zeros (k : Nat) (digits : List Char) :
    natOfDigits (digits ++ List.replicate k '0') = natOfDigits digits * 10 ^ k := by
  rw [natOfDigits_eq, Nat.ofDigitChars_append, Nat.ofDigitChars_replicate_zero, Nat.mul_comm]
  rfl

theorem Text.isDigit_eq (c : Char) : Text.isDigit c = c.isDigit := rfl

/-- Every character is one of the ten digits. -/
def AllDigits (text : List Char) : Prop := ∀ c ∈ text, Text.isDigit c = true

theorem AllDigits.append {a b : List Char} (ha : AllDigits a) (hb : AllDigits b) :
    AllDigits (a ++ b) := by
  intro c hc
  rcases List.mem_append.mp hc with hc | hc
  · exact ha c hc
  · exact hb c hc

theorem allDigits_toDigits (n : Nat) : AllDigits (Nat.toDigits 10 n) := by
  intro c hc
  rw [Text.isDigit_eq]
  exact Nat.isDigit_of_mem_toDigits (by decide) (by decide) hc

theorem allDigits_zeros (k : Nat) : AllDigits (List.replicate k '0') := by
  intro c hc
  rw [(List.mem_replicate.mp hc).2]
  decide

theorem AllDigits.point_not_mem {text : List Char} (h : AllDigits text) : '.' ∉ text := by
  intro hc
  exact absurd (h '.' hc) (by decide)

/-- The sign of a negative number. -/
def signOf (negative : Bool) : List Char := if negative then ['-'] else []

/-- An integer is written as its sign and digits. -/
theorem toList_toString_int (n : Int) :
    (toString n).toList = signOf (n < 0) ++ Nat.toDigits 10 n.natAbs := by
  cases n with
  | ofNat m =>
      have hsign : ¬ Int.ofNat m < 0 := Int.not_lt.mpr (Int.natCast_nonneg m)
      rw [signOf, decide_eq_false hsign, if_neg Bool.false_ne_true]
      exact Nat.toList_repr
  | negSucc m =>
      have hsign : Int.negSucc m < 0 := by omega
      rw [signOf, decide_eq_true hsign, if_pos rfl]
      show ("-" ++ (m + 1).repr).toList = _
      rw [String.toList_append, Nat.toList_repr]
      rfl

/-! ## Decimals -/

/-- What a decimal consists of when it is written: it has digits on both sides of the point, and
reading them gives the number. -/
structure Numeral (negative : Bool) (rank : Fin Binary64.ranks) where
  whole : List Char
  fraction : List Char
  wholeDigits : AllDigits whole
  fractionDigits : AllDigits fraction
  nonempty : whole ≠ []
  reads : Binary64.ofDigits negative whole fraction 0 = .finite negative rank

/-- The numeral as text. -/
def Numeral.text {negative : Bool} {rank : Fin Binary64.ranks} (n : Numeral negative rank) :
    List Char :=
  signOf negative ++ n.whole ++ '.' :: n.fraction

namespace Layout

/-- Where the point goes when every digit is written out: among the digits, or zeros follow them. -/
theorem positional_plain {digits : List Char} (hd : AllDigits digits) (hne : digits ≠ [])
    (exponent : Int) :
    (∃ whole fraction, AllDigits whole ∧ AllDigits fraction ∧ whole ≠ [] ∧
      plain.positional digits (digits.length + exponent) = whole ++ '.' :: fraction ∧
      natOfDigits (whole ++ fraction) = natOfDigits digits ∧ exponent = -(fraction.length : Int)) ∨
    ∃ k : Nat, plain.positional digits (digits.length + exponent) = digits ++ List.replicate k '0' ∧
      exponent = k := by
  have hlength : 0 < digits.length := List.length_pos_iff.mpr hne
  unfold positional
  by_cases hleft : (digits.length : Int) + exponent ≤ 0
  · -- all digits stand behind the point
    refine Or.inl ⟨['0'], _, allDigits_zeros 1, (allDigits_zeros _).append hd, by simp,
      if_pos hleft, ?_, ?_⟩
    · exact natOfDigits_zeros_append (_ + 1) digits
    · rw [List.length_append, List.length_replicate]
      omega
  rw [if_neg hleft]
  by_cases hright : digits.length ≤ ((digits.length : Int) + exponent).toNat
  · -- zeros follow the digits, and no point
    refine Or.inr ⟨exponent.toNat, ?_, by omega⟩
    have hzeros : ((digits.length : Int) + exponent).toNat - digits.length = exponent.toNat := by
      omega
    rw [if_pos hright, hzeros]
    exact List.append_nil _
  · -- the point stands among the digits
    refine Or.inl ⟨_, _, ?_, ?_, ?_, if_neg hright, ?_, ?_⟩
    · exact fun c hc => hd c (List.mem_of_mem_take hc)
    · exact fun c hc => hd c (List.mem_of_mem_drop hc)
    · intro hnil
      have := congrArg List.length hnil
      rw [List.length_take, List.length_nil] at this
      omega
    · rw [List.take_append_drop]
    · rw [List.length_drop]
      omega

end Layout

namespace Source

open Binary64

/-- A magnitude written out: with a point already, or as digits that `.0` may follow. -/
theorem magnitude_plain (negative : Bool) (rank : Fin ranks) :
    ∃ text, Layout.plain.write (.finite negative rank) = String.ofList (signOf negative ++ text) ∧
      ((∃ n : Numeral negative rank, text = n.whole ++ '.' :: n.fraction) ∨
        ∃ n : Numeral negative rank, text = n.whole ∧ n.fraction = ['0']) := by
  refine ⟨if rank.val = 0 then ['0']
    else Layout.plain.decimal (Decimal.shortest .upper rank), ?_, ?_⟩
  · cases negative <;> rfl
  by_cases hzero : rank.val = 0
  · have hrank : rank = ⟨0, by decide⟩ := Fin.ext hzero
    rw [if_pos hzero]
    refine Or.inr ⟨⟨['0'], ['0'], allDigits_zeros 1, allDigits_zeros 1, by simp, ?_⟩, rfl, rfl⟩
    rw [hrank]
    rfl
  rw [if_neg hzero]
  -- the digits that are written are the shortest that read as this number
  generalize hd : Decimal.shortest .upper rank = d
  have hreads : ofScientific negative d.digits d.exponent = .finite negative rank :=
    ofScientific_sign (hd ▸ Decimal.reads_shortest .upper rank) negative
  have hne : Nat.toDigits 10 d.digits ≠ [] := by
    intro hnil
    have := Nat.length_toDigits_pos (b := 10) (n := d.digits)
    rw [hnil] at this
    exact absurd this (by decide)
  have hdecimal : Layout.plain.decimal d = Layout.plain.positional (Nat.toDigits 10 d.digits)
      ((Nat.toDigits 10 d.digits).length + d.exponent) := rfl
  rw [hdecimal]
  rcases Layout.positional_plain (allDigits_toDigits d.digits) hne d.exponent with
    ⟨whole, fraction, hw, hf, hnw, htext, hvalue, hexponent⟩ | ⟨k, htext, hexponent⟩
  · refine Or.inl ⟨⟨whole, fraction, hw, hf, hnw, ?_⟩, htext⟩
    rw [ofDigits, hvalue, natOfDigits_toDigits, Int.zero_sub, ← hexponent]
    exact hreads
  · -- without a point, `.0` shifts the digits once more than the zeros do
    have hzeros := allDigits_zeros k
    refine Or.inr ⟨⟨_, ['0'], (allDigits_toDigits _).append hzeros, allDigits_zeros 1, ?_, ?_⟩,
      htext, rfl⟩
    · simp [hne]
    · have hmore : List.replicate k '0' ++ ['0'] = List.replicate (k + 1) '0' :=
        List.replicate_succ'.symm
      have hshift : (0 : Int) - (['0'].length : Nat) = d.exponent - (k + 1 : Nat) := by
        rw [List.length_singleton]
        omega
      rw [ofDigits, List.append_assoc, hmore, natOfDigits_append_zeros, natOfDigits_toDigits, hshift,
        ofScientific_shift]
      exact hreads

/-- **A decimal is written as a numeral that reads back as the number.** -/
theorem printDecimal_eq (negative : Bool) (rank : Fin ranks) :
    ∃ n : Numeral negative rank, (printDecimal (.finite negative rank)).toList = n.text := by
  obtain ⟨text, hwrite, hcases⟩ := magnitude_plain negative rank
  have hsign : '.' ∉ signOf negative := by cases negative <;> decide
  unfold printDecimal
  simp only [hwrite, String.contains_char_eq, String.toList_ofList, isFinite]
  rcases hcases with ⟨n, rfl⟩ | ⟨n, rfl, hfraction⟩
  · refine ⟨n, ?_⟩
    rw [if_pos (by simp), String.toList_ofList, Numeral.text, List.append_assoc]
  · refine ⟨n, ?_⟩
    rw [if_neg (by simp [hsign, n.wholeDigits.point_not_mem]), String.toList_append,
      String.toList_ofList, Numeral.text, hfraction]
    rfl

end Source

end ErModel
