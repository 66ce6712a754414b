import ErModel.Json.Numeral
import ErModel.Json.Writer
import ErModel.Proofs.Lexing

/-!
# Numbers in JSON texts

Every finite number is written as a numeral of JSON, with digits on either side of a point or with
an exponent. Not every number is read as itself, since numerals are read in a quick way that is not
always correctly rounded; `Number.Lossless` says of a number that it is. A number of few digits is,
for then the quick way is one division of exact numbers. Whole numbers of 64 bits always are.
-/

namespace ErModel.Json

/-- Reading the numeral that the number is written as gives the number. -/
def Number.Lossless (n : Number) : Prop :=
  ∀ numeral, readNumeral (writeNumber n) = some (numeral, []) → numeral.value? = some n

/-- The text that the number is written as is a numeral that stands for the number. -/
def Number.Legible (n : Number) : Prop :=
  ∃ numeral, readNumeral (writeNumber n) = some (numeral, []) ∧ numeral.value? = some n

/-! ## What can go on a numeral -/

/-- The characters that can go on a numeral. -/
def continues (c : Char) : Bool := Text.isDigit c || c = '.' || c = 'e' || c = 'E'

section

variable {source left rest : List Char}

/-- The digits end where they did when something follows that is no digit. -/
theorem digits_append (hs : Source.Stops continues rest) :
    leadingDigits (source ++ rest) = leadingDigits source ∧
      afterDigits (source ++ rest) = afterDigits source ++ rest := by
  have hdigits : AllDigits (leadingDigits source) := fun c hc => List.mem_takeWhile_imp hc
  have hstops : Source.Stops Text.isDigit (afterDigits source ++ rest) := by
    intro c hc
    have hafter := List.head?_dropWhile_not Text.isDigit source
    cases hmore : source.dropWhile Text.isDigit with
    | nil =>
        rw [afterDigits, hmore] at hc
        have hnone := hs c hc
        simp only [continues, Bool.or_eq_false_iff] at hnone
        exact hnone.1.1.1
    | cons d more =>
        rw [hmore] at hafter
        rw [afterDigits, hmore] at hc
        exact Option.some.inj hc ▸ hafter
  have hsplit : source ++ rest = leadingDigits source ++ (afterDigits source ++ rest) := by
    rw [← List.append_assoc, leadingDigits_append_afterDigits]
  rw [hsplit]
  exact ⟨Source.takeWhile_stops hdigits hstops, Source.dropWhile_stops hdigits hstops⟩

theorem readFraction_append (hs : Source.Stops continues rest) {fraction : Option (List Char)}
    (h : readFraction source = some (fraction, left)) :
    readFraction (source ++ rest) = some (fraction, left ++ rest) := by
  cases source with
  | nil =>
      cases h
      cases rest with
      | nil => rfl
      | cons c more =>
          have hc : c ≠ '.' := by
            rintro rfl
            exact absurd (hs '.' rfl) (by decide)
          simp [readFraction, hc]
  | cons c source =>
      by_cases hc : c = '.'
      · subst hc
        rw [readFraction] at h
        rw [List.cons_append, readFraction, (digits_append hs).1, (digits_append hs).2]
        split at h
        · cases h
        · rename_i hne
          cases h
          rw [if_neg hne]
      · have hnone : ∀ more, readFraction (c :: more) = some (none, c :: more) := by
          intro more
          simp [readFraction, hc]
        rw [hnone] at h
        cases h
        exact hnone (source ++ rest)

theorem readSign_append {source : List Char} (hne : source ≠ []) (rest : List Char) :
    readSign (source ++ rest) = ((readSign source).1, (readSign source).2 ++ rest) := by
  cases source with
  | nil => exact absurd rfl hne
  | cons c source =>
      rw [List.cons_append]
      unfold readSign
      split
      · rename_i h; cases h; rfl
      · rename_i h; cases h; rfl
      · rename_i h₁ h₂; simp_all

theorem readExponent_append (hs : Source.Stops continues rest)
    {exponent : Option (Bool × List Char)}
    (h : readExponent source = some (exponent, left)) :
    readExponent (source ++ rest) = some (exponent, left ++ rest) := by
  cases source with
  | nil =>
      cases h
      cases rest with
      | nil => rfl
      | cons c more =>
          have hc := hs c rfl
          simp only [continues, Bool.or_eq_false_iff, decide_eq_false_iff_not] at hc
          simp [readExponent, hc.2, hc.1.2]
  | cons c source =>
      rw [readExponent] at h
      rw [List.cons_append, readExponent]
      by_cases hc : (c = 'e' || c = 'E') = true
      · rw [if_pos hc] at h ⊢
        have hne : source ≠ [] := by
          rintro rfl
          simp [readSign, leadingDigits] at h
        rw [readSign_append hne, (digits_append hs).1, (digits_append hs).2]
        dsimp only at h ⊢
        split at h
        · cases h
        · rename_i hdigits
          cases h
          rw [if_neg hdigits]
      · rw [if_neg hc] at h ⊢
        cases h
        rfl

theorem readMagnitude_append (hs : Source.Stops continues rest) {negative : Bool}
    {numeral : Numeral} (h : readMagnitude negative source = some (numeral, left)) :
    readMagnitude negative (source ++ rest) = some (numeral, left ++ rest) := by
  unfold readMagnitude at h ⊢
  rw [(digits_append hs).1, (digits_append hs).2]
  split at h
  · cases h
  split at h
  · cases h
  rename_i hne hzero
  obtain ⟨⟨fraction, more⟩, hfraction, h⟩ := Option.bind_eq_some_iff.mp h
  obtain ⟨⟨exponent, more'⟩, hexponent, h⟩ := Option.map_eq_some_iff.mp h
  cases h
  rw [if_neg hne, if_neg hzero, readFraction_append hs hfraction]
  show Option.map _ (readExponent (more ++ rest)) = _
  rw [readExponent_append hs hexponent]
  rfl

/-- A numeral is read as before when something follows that cannot go on it. -/
theorem readNumeral_append (hs : Source.Stops continues rest) {numeral : Numeral}
    (h : readNumeral source = some (numeral, left)) :
    readNumeral (source ++ rest) = some (numeral, left ++ rest) := by
  cases source with
  | nil => cases h
  | cons c source =>
      by_cases hc : c = '-'
      · subst hc
        exact readMagnitude_append hs h
      · have hplain : ∀ more, readNumeral (c :: more) = readMagnitude false (c :: more) := by
          intro more
          simp [readNumeral, hc]
        rw [hplain] at h
        rw [List.cons_append, hplain]
        exact readMagnitude_append hs h

/-- A numeral starts with its sign or with a digit. -/
theorem head_of_readNumeral {numeral : Numeral} (h : readNumeral source = some (numeral, left)) :
    ∃ c more, source = c :: more ∧ (c = '-' ∨ Text.isDigit c = true) := by
  cases source with
  | nil => cases h
  | cons c source =>
      refine ⟨c, source, rfl, ?_⟩
      by_cases hc : c = '-'
      · exact Or.inl hc
      · refine Or.inr ?_
        by_contra hdigit
        have hnone : leadingDigits (c :: source) = [] := List.takeWhile_cons_of_neg hdigit
        simp [readNumeral, hc, readMagnitude, hnone] at h

end

/-! ## The parts of a numeral -/

/-- What may stand before the point: digits, and no zero in front of others. -/
structure WholePart (whole : List Char) : Prop where
  digits : AllDigits whole
  nonempty : whole ≠ []
  zero : whole.head? = some '0' → whole.length ≤ 1

theorem wholePart_zero : WholePart ['0'] := ⟨allDigits_zeros 1, by simp, fun _ => Nat.le_refl 1⟩

/-- Digits have no zero in front. -/
theorem head_toDigits {n : Nat} (hn : 0 < n) : (Nat.toDigits 10 n).head? ≠ some '0' := by
  induction n using Nat.strongRecOn with
  | _ n ih =>
      by_cases hsmall : n < 10
      · have hdigit : ∀ k < 10, 0 < k → (Nat.toDigits 10 k).head? ≠ some '0' := by decide
        exact hdigit n hsmall hn
      · have hmore := ih (n / 10) (by omega) (by omega)
        rw [Nat.toDigits_of_base_le (by decide) (by omega)]
        cases hhead : Nat.toDigits 10 (n / 10) with
        | nil => exact absurd (Nat.length_toDigits_pos (b := 10) (n := n / 10)) (by simp [hhead])
        | cons c rest =>
            rw [hhead] at hmore
            exact hmore

theorem toDigits_ne_nil (n : Nat) : Nat.toDigits 10 n ≠ [] :=
  List.length_pos_iff.mp Nat.length_toDigits_pos

theorem wholePart_toDigits (n : Nat) : WholePart (Nat.toDigits 10 n) := by
  refine ⟨allDigits_toDigits n, toDigits_ne_nil n, fun hhead => ?_⟩
  cases n with
  | zero => exact Nat.le_refl 1
  | succ n => exact absurd hhead (head_toDigits (Nat.succ_pos n))

/-- Digits may be cut off or zeros put behind them. -/
theorem wholePart_of_head {n : Nat} {whole : List Char} (hn : 0 < n) (hd : AllDigits whole)
    (hne : whole ≠ []) (hhead : whole.head? = (Nat.toDigits 10 n).head?) : WholePart whole :=
  ⟨hd, hne, fun hzero => absurd (hhead ▸ hzero) (head_toDigits hn)⟩

variable {whole fraction more tail : List Char}

/-- The parts of a numeral are taken off one after the other. -/
theorem readNumeral_parts (negative : Bool) {fraction : Option (List Char)}
    {exponent : Option (Bool × List Char)} (hw : WholePart whole)
    (hs : Source.Stops Text.isDigit tail) (hf : readFraction tail = some (fraction, more))
    (he : readExponent more = some (exponent, [])) :
    readNumeral (signOf negative ++ (whole ++ tail)) =
      some (⟨negative, whole, fraction, exponent⟩, []) := by
  have hleading : leadingDigits (whole ++ tail) = whole := Source.takeWhile_stops hw.digits hs
  have hafter : afterDigits (whole ++ tail) = tail := Source.dropWhile_stops hw.digits hs
  have hzero : ¬ (whole.head? = some '0' ∧ 1 < whole.length) :=
    fun h => Nat.not_lt.mpr (hw.zero h.1) h.2
  have hmagnitude : readMagnitude negative (whole ++ tail) =
      some (⟨negative, whole, fraction, exponent⟩, []) := by
    rw [readMagnitude, hleading, hafter, if_neg (by simpa using hw.nonempty),
      if_neg (by simpa using hzero), hf]
    show Option.map _ (readExponent more) = _
    rw [he]
    rfl
  cases negative with
  | true => exact hmagnitude
  | false =>
      rw [← hmagnitude]
      cases hsource : whole with
      | nil => exact absurd hsource hw.nonempty
      | cons c digits =>
          have hc : c ≠ '-' := by
            rintro rfl
            exact absurd (hw.digits '-' (hsource ▸ List.mem_cons_self)) (by decide)
          simp [signOf, readNumeral, hc]

theorem readFraction_point (hf : AllDigits fraction) (hne : fraction ≠ [])
    (hs : Source.Stops Text.isDigit more) :
    readFraction ('.' :: (fraction ++ more)) = some (some fraction, more) := by
  have hleading : leadingDigits (fraction ++ more) = fraction := Source.takeWhile_stops hf hs
  have hafter : afterDigits (fraction ++ more) = more := Source.dropWhile_stops hf hs
  rw [readFraction, hleading, hafter, if_neg (by simpa using hne)]

/-- Before the digits of an exponent there may be either sign or none. -/
theorem readExponent_digits {sign digits : List Char} (hsign : sign ∈ [[], ['-'], ['+']])
    (hd : AllDigits digits) (hne : digits ≠ []) :
    ∃ negative, readExponent ('e' :: (sign ++ digits)) = some (some (negative, digits), []) := by
  have hleading : leadingDigits digits = digits := List.takeWhile_eq_self_iff.mpr hd
  have hafter : afterDigits digits = [] := List.dropWhile_eq_nil_iff.mpr hd
  have hread : ∃ negative, readSign (sign ++ digits) = (negative, digits) := by
    simp only [List.mem_cons, List.not_mem_nil, or_false] at hsign
    rcases hsign with rfl | rfl | rfl
    · cases hsource : digits with
      | nil => exact absurd hsource hne
      | cons c rest =>
          have hdigit : Text.isDigit c = true := hd c (hsource ▸ List.mem_cons_self)
          refine ⟨false, ?_⟩
          rw [List.nil_append]
          unfold readSign
          split
          · rename_i he
            cases he
            exact absurd hdigit (by decide)
          · rename_i he
            cases he
            exact absurd hdigit (by decide)
          · rfl
    · exact ⟨true, rfl⟩
    · exact ⟨false, rfl⟩
  obtain ⟨negative, hread⟩ := hread
  refine ⟨negative, ?_⟩
  rw [readExponent, if_pos (by decide), hread]
  show (if (leadingDigits digits).isEmpty then none else _) = _
  rw [hleading, hafter, if_neg (by simpa using hne)]

/-! ## Whole numbers -/

/-- **A whole number of 64 bits is read as itself.** -/
theorem legible_whole {n : Nat} (hn : n ≤ gatherLimit) : (Number.whole n).Legible := by
  have hwrite : writeNumber (.whole n) = signOf false ++ (Nat.toDigits 10 n ++ []) := by
    rw [List.append_nil]
    exact Nat.toList_repr
  refine ⟨⟨false, Nat.toDigits 10 n, none, none⟩, ?_, ?_⟩
  · rw [hwrite]
    exact readNumeral_parts false (wholePart_toDigits n) (fun c hc => by cases hc) rfl rfl
  · simp only [Numeral.value?, natOfDigits_toDigits]
    rw [if_neg (by simpa using hn)]
    rfl

/-! ## Numbers that are not whole -/

/-- Digits and a point are laid out with digits on either side of the point. -/
theorem positional_json {digits : Nat} (hpos : 0 < digits) (exponent : Int) :
    ∃ whole fraction, WholePart whole ∧ AllDigits fraction ∧ fraction ≠ [] ∧
      Layout.json.positional (Nat.toDigits 10 digits)
        ((Nat.toDigits 10 digits).length + exponent) = whole ++ '.' :: fraction ∧
      natOfDigits (whole ++ fraction) = digits * 10 ^ (exponent + 1).toNat ∧
      exponent - (exponent + 1).toNat = -(fraction.length : Int) := by
  have hd := allDigits_toDigits digits
  have hvalue := natOfDigits_toDigits digits
  have hlength : 0 < (Nat.toDigits 10 digits).length := Nat.length_toDigits_pos
  generalize hchars : Nat.toDigits 10 digits = chars at hd hvalue hlength
  unfold Layout.positional
  by_cases hleft : (chars.length : Int) + exponent ≤ 0
  · -- all digits stand behind the point
    have hshift : (exponent + 1).toNat = 0 := by omega
    refine ⟨['0'], List.replicate (-((chars.length : Int) + exponent)).toNat '0' ++ chars,
      wholePart_zero, (allDigits_zeros _).append hd, ?_, if_pos hleft, ?_, ?_⟩
    · exact List.append_ne_nil_of_right_ne_nil _ (List.length_pos_iff.mp hlength)
    · rw [hshift, Nat.pow_zero, Nat.mul_one, ← hvalue]
      exact natOfDigits_zeros_append (_ + 1) chars
    · rw [hshift, List.length_append, List.length_replicate]
      omega
  rw [if_neg hleft]
  by_cases hright : chars.length ≤ ((chars.length : Int) + exponent).toNat
  · -- zeros follow the digits, and one behind the point
    refine ⟨chars ++ List.replicate exponent.toNat '0', ['0'], ?_, allDigits_zeros 1, by simp, ?_,
      ?_, ?_⟩
    · refine wholePart_of_head hpos (hd.append (allDigits_zeros _)) ?_ ?_
      · exact List.append_ne_nil_of_left_ne_nil (List.length_pos_iff.mp hlength) _
      · rw [hchars, List.head?_append]
        exact Option.or_eq_left_of_isSome (by simpa using List.length_pos_iff.mp hlength)
    · have hzeros : ((chars.length : Int) + exponent).toNat - chars.length = exponent.toNat := by
        omega
      rw [if_pos hright, hzeros]
      rfl
    · have hmore : List.replicate exponent.toNat '0' ++ ['0'] =
          List.replicate (exponent + 1).toNat '0' := by
        have hsucc : (exponent + 1).toNat = exponent.toNat + 1 := by omega
        rw [hsucc]
        exact List.replicate_succ'.symm
      rw [List.append_assoc, hmore, natOfDigits_append_zeros, hvalue]
    · rw [List.length_singleton]
      omega
  · -- the point stands among the digits
    have hshift : (exponent + 1).toNat = 0 := by omega
    have hbefore : 0 < ((chars.length : Int) + exponent).toNat := by omega
    refine ⟨chars.take ((chars.length : Int) + exponent).toNat,
      chars.drop ((chars.length : Int) + exponent).toNat, ?_, ?_, ?_, if_neg hright, ?_, ?_⟩
    · refine wholePart_of_head hpos (fun c hc => hd c (List.mem_of_mem_take hc)) ?_ ?_
      · simp [List.length_pos_iff.mp hlength]
        omega
      · rw [hchars, List.head?_take, if_neg (by omega)]
    · exact fun c hc => hd c (List.mem_of_mem_drop hc)
    · simp
      omega
    · rw [List.take_append_drop, hvalue, hshift, Nat.pow_zero, Nat.mul_one]
    · rw [hshift, List.length_drop]
      omega

/-- With an exponent there is one digit before the point. -/
theorem scientific_json {digits : Nat} (hpos : 0 < digits) (negative : Bool) (exponent : Int) :
    ∃ numeral, readNumeral (signOf negative ++
      Layout.json.scientific (Nat.toDigits 10 digits) exponent) = some (numeral, []) := by
  have hd := allDigits_toDigits digits
  have hlength : 0 < (Nat.toDigits 10 digits).length := Nat.length_toDigits_pos
  have hpart : WholePart ((Nat.toDigits 10 digits).take 1) := by
    refine wholePart_of_head hpos (fun c hc => hd c (List.mem_of_mem_take hc)) ?_ ?_
    · simp
    · rw [List.head?_take, if_neg (by decide)]
  let sign : List Char := if exponent < 0 then ['-'] else ['+']
  have hsign : sign ∈ [[], ['-'], ['+']] := by
    unfold sign
    split <;> simp
  obtain ⟨side, hexponent⟩ := readExponent_digits hsign
    (allDigits_toDigits exponent.natAbs) (toDigits_ne_nil _)
  -- the exponent ends the digits before it, with a fraction or without
  generalize htail : 'e' :: (sign ++ Nat.toDigits 10 exponent.natAbs) = tail at hexponent
  have hstop : Source.Stops Text.isDigit tail := by
    rintro c hc
    rw [← htail] at hc
    cases hc
    decide
  have htext : Layout.json.scientific (Nat.toDigits 10 digits) exponent =
      (Nat.toDigits 10 digits).take 1 ++ ((if (Nat.toDigits 10 digits).length ≤ 1 then []
        else '.' :: (Nat.toDigits 10 digits).drop 1) ++ tail) := by
    rw [← htail, Layout.scientific]
    simp only [List.append_assoc, List.cons_append]
    rfl
  rw [htext]
  by_cases hone : (Nat.toDigits 10 digits).length ≤ 1
  · have hplain : readFraction tail = some (none, tail) := by
      rw [← htail]
      rfl
    rw [if_pos hone]
    exact ⟨_, readNumeral_parts negative hpart hstop hplain hexponent⟩
  · have hmore : (Nat.toDigits 10 digits).drop 1 ≠ [] := by
      intro hnil
      exact hone (List.drop_eq_nil_iff.mp hnil)
    rw [if_neg hone]
    exact ⟨_, readNumeral_parts negative hpart (fun c hc => by cases hc; decide)
      (readFraction_point (fun c hc => hd c (List.mem_of_mem_drop hc)) hmore hstop) hexponent⟩

open Binary64

/-- The shortest decimal of a number that is not zero has digits. -/
theorem digits_pos (tie : Decimal.Tie) {rank : Fin ranks} (hrank : rank.val ≠ 0) :
    0 < (Decimal.shortest tie rank).digits := by
  refine Nat.pos_of_ne_zero fun hzero => hrank ?_
  have hreads := Decimal.reads_shortest tie rank
  rw [Decimal.Reads, hzero, ofScientific, if_pos rfl] at hreads
  cases hreads
  rfl

theorem writeNumber_finite (negative : Bool) (rank : Fin ranks) :
    writeNumber (.real (.finite negative rank)) = signOf negative ++
      (if rank.val = 0 then ['0', '.', '0']
        else Layout.json.decimal (Decimal.shortest .even rank)) := by
  show (Layout.json.write (.finite negative rank)).toList = _
  rw [Layout.write]
  cases negative <;> exact String.toList_ofList

/-- A number is written with digits on either side of a point, or with an exponent. The digits stand
for the number. -/
theorem written_finite (negative : Bool) (rank : Fin ranks) :
    (∃ whole fraction, WholePart whole ∧ AllDigits fraction ∧ fraction ≠ [] ∧
      writeNumber (.real (.finite negative rank)) =
        signOf negative ++ (whole ++ '.' :: (fraction ++ [])) ∧
      ofDigits false whole fraction 0 = .finite false rank) ∨
    ∃ digits exponent, 0 < digits ∧ writeNumber (.real (.finite negative rank)) =
      signOf negative ++ Layout.json.scientific (Nat.toDigits 10 digits) exponent := by
  rw [writeNumber_finite]
  by_cases hzero : rank.val = 0
  · have hrank : rank = ⟨0, by decide⟩ := Fin.ext hzero
    refine Or.inl ⟨['0'], ['0'], wholePart_zero, allDigits_zeros 1, by simp, ?_, ?_⟩
    · rw [if_pos hzero]
      rfl
    · rw [hrank]
      rfl
  have hpos := digits_pos .even hzero
  -- all that matters of the decimal is that it has digits and reads as the number
  have hreads := Decimal.reads_shortest .even rank
  rw [if_neg hzero]
  generalize Decimal.shortest .even rank = d at hpos hreads
  unfold Layout.decimal
  dsimp only
  split
  · obtain ⟨whole, fraction, hw, hf, hne, htext, hvalue, hshift⟩ := positional_json hpos d.exponent
    refine Or.inl ⟨whole, fraction, hw, hf, hne, ?_, ?_⟩
    · rw [htext, List.append_nil]
    · rw [ofDigits, hvalue, Int.zero_sub, ← hshift, ofScientific_shift]
      exact hreads
  · exact Or.inr ⟨d.digits, _, hpos, rfl⟩

/-- **A finite number is written as a numeral.** -/
theorem exists_numeral {x : Binary64} (h : x.isFinite = true) :
    ∃ numeral, readNumeral (writeNumber (.real x)) = some (numeral, []) := by
  cases x with
  | nan => cases h
  | infinite negative => cases h
  | finite negative rank =>
      rcases written_finite negative rank with
        ⟨whole, fraction, hw, hf, hne, htext, -⟩ | ⟨digits, exponent, hpos, htext⟩
      · rw [htext]
        exact ⟨_, readNumeral_parts negative hw (fun c hc => by cases hc; decide)
          (readFraction_point hf hne fun c hc => by cases hc) rfl⟩
      · rw [htext]
        exact scientific_json hpos negative exponent

/-- A finite number is legible if reading it loses nothing. -/
theorem legible_of_lossless {x : Binary64} (h : x.isFinite = true)
    (hl : (Number.real x).Lossless) : (Number.real x).Legible := by
  obtain ⟨numeral, hread⟩ := exists_numeral h
  exact ⟨numeral, hread, hl numeral hread⟩

/-! ## Numbers of few digits -/

theorem digitValue_lt {c : Char} (h : Text.isDigit c = true) : digitValue c < 10 := by
  simp only [Text.isDigit_eq, Char.isDigit, Bool.and_eq_true, decide_eq_true_eq] at h
  have hle : c.toNat ≤ 57 := h.2
  show c.toNat - 48 < 10
  omega

/-- Digits are gathered to the end when they fit. -/
theorem gather_digits {digits : List Char} (hd : AllDigits digits) {n : Nat}
    (h : (n + 1) * 10 ^ digits.length ≤ gatherLimit) :
    gather n digits = (Nat.ofDigitChars 10 digits n, []) ∧
      Nat.ofDigitChars 10 digits n < (n + 1) * 10 ^ digits.length := by
  induction digits generalizing n with
  | nil => exact ⟨rfl, by simp⟩
  | cons c digits ih =>
      have hc := digitValue_lt (hd c List.mem_cons_self)
      have hle : (10 * n + digitValue c + 1) * 10 ^ digits.length ≤
          (n + 1) * 10 ^ (c :: digits).length := by
        rw [List.length_cons, Nat.pow_succ', ← Nat.mul_assoc]
        exact Nat.mul_le_mul_right _ (by omega)
      have hfits : 10 * n + digitValue c ≤ gatherLimit := by
        have := Nat.le_mul_of_pos_right (10 * n + digitValue c + 1) (ten_pow_pos digits.length)
        omega
      obtain ⟨hgather, hlt⟩ := ih (fun d hd' => hd d (List.mem_cons_of_mem c hd'))
        (Nat.le_trans hle h)
      rw [gather, if_pos hfits, hgather, Nat.ofDigitChars_cons]
      exact ⟨rfl, Nat.lt_of_lt_of_le hlt hle⟩

/-- Few digits are scaled by one division, and that is of exact numbers. -/
theorem scale?_exact {n places : Nat} (hn : n < 2 ^ 53) (hpos : 0 < places)
    (hplaces : places ≤ 22) :
    scale? n (-(places : Int)) = some (ofScientific false n (-(places : Int))) := by
  have hdown : (-(places : Int)).natAbs = places := by omega
  have hplain : (-(places : Int)).toNat = 0 := by omega
  unfold scale?
  dsimp only
  rw [if_pos (by omega), hdown, scaleDown, if_pos (by omega),
    div_of_exact (exact_of_lt hn) (exact_ten_pow hplaces) (ten_pow_pos places), ofScientific_eq,
    hplain, Int.neg_neg, Int.toNat_natCast, Nat.pow_zero, Nat.mul_one]

theorem magnitude?_exact (negative : Bool) {whole fraction : List Char} (hw : AllDigits whole)
    (hf : AllDigits fraction) (hne : fraction ≠ [])
    (hlength : whole.length + fraction.length ≤ 15) :
    Numeral.magnitude? ⟨negative, whole, some fraction, none⟩ =
      some (ofDigits false whole fraction 0) := by
  have hpos : 0 < fraction.length := List.length_pos_iff.mpr hne
  have hall : 10 ^ whole.length * 10 ^ fraction.length ≤ 10 ^ 15 := by
    rw [← Nat.pow_add]
    exact Nat.pow_le_pow_right (by decide) hlength
  have hfirst : (0 + 1) * 10 ^ whole.length ≤ gatherLimit := by
    rw [Nat.zero_add, Nat.one_mul]
    exact Nat.le_trans (Nat.pow_le_pow_right (by decide) (by omega : whole.length ≤ 15))
      (by decide)
  obtain ⟨hwhole, hlt⟩ := gather_digits hw hfirst
  -- the digits behind the point go on where those before it end
  have hsecond : (Nat.ofDigitChars 10 whole 0 + 1) * 10 ^ fraction.length ≤ 10 ^ 15 := by
    refine Nat.le_trans (Nat.mul_le_mul_right _ ?_) hall
    omega
  obtain ⟨hfraction, hlt'⟩ := gather_digits hf (Nat.le_trans hsecond (by decide))
  have hsmall : Nat.ofDigitChars 10 fraction (Nat.ofDigitChars 10 whole 0) < 2 ^ 53 :=
    Nat.lt_of_lt_of_le (Nat.lt_of_lt_of_le hlt' hsecond) (by decide)
  have hplaces : (([] : List Char).length : Int) - (fraction.length - ([] : List Char).length) =
      -(fraction.length : Int) := by
    simp
  unfold Numeral.magnitude?
  simp only [hwhole, hfraction, Option.getD_some]
  rw [hplaces, scale?_exact hsmall hpos (by omega), ofDigits, natOfDigits_eq,
    Nat.ofDigitChars_append, Int.zero_sub]

/-- **Fifteen digits without exponent are read without loss.** They are gathered into a number of
53 bits, and so is the power of ten that it is divided by. -/
theorem lossless_of_length {x : Binary64} (hfinite : x.isFinite = true)
    (hplain : 'e' ∉ writeNumber (.real x)) (hlength : (writeNumber (.real x)).length ≤ 16) :
    (Number.real x).Lossless := by
  cases x with
  | nan => cases hfinite
  | infinite negative => cases hfinite
  | finite negative rank =>
      rcases written_finite negative rank with
        ⟨whole, fraction, hw, hf, hne, htext, hreads⟩ | ⟨digits, exponent, hpos, htext⟩
      · intro numeral hread
        rw [htext, readNumeral_parts negative hw (fun c hc => by cases hc; decide)
          (readFraction_point hf hne fun c hc => by cases hc) rfl] at hread
        cases hread
        have hfew : whole.length + fraction.length ≤ 15 := by
          rw [htext] at hlength
          simp only [List.length_append, List.length_cons, List.length_nil] at hlength
          omega
        rw [Numeral.value?]
        simp only [Option.isSome_some, Bool.true_or, if_true,
          magnitude?_exact negative hw.digits hf hne hfew, hreads, Option.map_some]
        cases negative <;> rfl
      · -- with an exponent there is a letter
        refine absurd ?_ hplain
        rw [htext, Layout.scientific]
        simp

end ErModel.Json
