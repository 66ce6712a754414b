import ErModel.Proofs.Common
import ErModel.Proofs.Numerals
import ErModel.Source.Lexer
import Mathlib.Data.List.TakeWhile

/-!
# What the lexer reads

One rule for each kind of token: if what follows it has certain tokens, the text with the token in
front of it has that token and those. A word goes on as far as it can, and so does a numeral; so
what follows them must not be able to belong to them.
-/

namespace ErModel

namespace Text

/-! ## Which characters belong to which class -/

/-- No code point of `spans` is in `others`. -/
def Spans.Avoid (spans others : Spans) : Prop :=
  ∀ s ∈ spans, ∀ k ∈ List.range (s.2 + 1 - s.1), others.has (s.1 + k) = false

instance (spans others : Spans) : Decidable (spans.Avoid others) :=
  inferInstanceAs (Decidable
    (∀ s ∈ spans, ∀ k ∈ List.range (s.2 + 1 - s.1), others.has (s.1 + k) = false))

theorem Spans.Avoid.holds {spans others : Spans} (h : spans.Avoid others) (ho : spans.Ordered)
    {c : Char} (hc : spans.holds c = true) : others.holds c = false := by
  obtain ⟨s, hs, hfirst, hlast⟩ := (has_iff ho _).mp hc
  have hmem : c.toNat - s.1 ∈ List.range (s.2 + 1 - s.1) := List.mem_range.mpr (by omega)
  have hnone := h s hs _ hmem
  rwa [Nat.add_sub_cancel' hfirst] at hnone

/-- The code points of the ten digits. -/
def digitSpans : Spans := [(0x30, 0x39)]

theorem holds_digitSpans {c : Char} (h : isDigit c = true) : digitSpans.holds c = true := by
  have hc := Char.isDigit_iff_toNat.mp (isDigit_eq c ▸ h)
  have hlast : c.toNat ≤ 57 := hc.2
  have hfirst : 48 ≤ c.toNat := hc.1
  simp [digitSpans, Spans.holds, Spans.has, hfirst, hlast]

theorem isLetter_of_isBlank {c : Char} (h : isBlank c = true) : isLetter c = false :=
  have havoid : blankSpans.Avoid letterSpans := by decide +kernel
  havoid.holds (by decide) h

theorem isLetter_of_isDigit {c : Char} (h : isDigit c = true) : isLetter c = false :=
  have havoid : digitSpans.Avoid letterSpans := by decide +kernel
  havoid.holds (by decide) (holds_digitSpans h)

theorem isNumeral_of_isDigit {c : Char} (h : isDigit c = true) : isNumeral c = true := by
  have hall : ∀ k ∈ List.range 10, numeralSpans.has (48 + k) = true := by decide
  obtain ⟨hfirst, hlast⟩ := Char.isDigit_iff_toNat.mp (isDigit_eq c ▸ h)
  have hfirst : 48 ≤ c.toNat := hfirst
  have hlast : c.toNat ≤ 57 := hlast
  have hmem : c.toNat - 48 ∈ List.range 10 := List.mem_range.mpr (by omega)
  have hc := hall _ hmem
  rwa [Nat.add_sub_cancel' hfirst] at hc

theorem isBlank_of_isDigit {c : Char} (h : isDigit c = true) : isBlank c = false :=
  have havoid : digitSpans.Avoid blankSpans := by decide +kernel
  havoid.holds (by decide) (holds_digitSpans h)

end Text

namespace Source

/-! ## Rules -/

/-- The tokens of a text. -/
def Scans (text : List Char) (tokens : List Token) : Prop := scan text = .ok tokens

/-- Once white space is dropped, the text is at its end or a token starts. -/
theorem scan_of_skipBlank {text : List Char} {c : Char} {rest : List Char}
    (h : skipBlank text = c :: rest) :
    scan text = scanToken c rest >>= fun s => (s.token :: ·) <$> scan s.rest := by
  rw [scan]
  split
  · rename_i hnil
    rw [h] at hnil
    cases hnil
  · rename_i hcons
    rw [h] at hcons
    cases hcons
    cases scanToken c rest with
    | error e => rfl
    | ok s =>
        show (scan s.rest >>= fun tokens => pure (s.token :: tokens)) =
          (s.token :: ·) <$> scan s.rest
        cases scan s.rest <;> rfl

theorem scan_of_skipBlank_nil {text : List Char} (h : skipBlank text = []) :
    scan text = .ok [.eof] := by
  rw [scan]
  split
  · rfl
  · rename_i hcons
    rw [h] at hcons
    cases hcons

theorem scans_nil : Scans [] [.eof] := scan_of_skipBlank_nil rfl

/-- White space means nothing. -/
theorem Scans.blank {c : Char} {rest : List Char} {tokens : List Token} (h : Scans rest tokens)
    (hc : Text.isBlank c = true) : Scans (c :: rest) tokens := by
  have hskip : skipBlank (c :: rest) = skipBlank rest := by rw [skipBlank, if_pos hc]
  cases hrest : skipBlank rest with
  | nil =>
      rw [Scans, scan_of_skipBlank_nil hrest] at h
      rwa [Scans, scan_of_skipBlank_nil (hskip.trans hrest)]
  | cons first more =>
      rw [Scans, scan_of_skipBlank hrest] at h
      rwa [Scans, scan_of_skipBlank (hskip.trans hrest)]

theorem Scans.space {rest : List Char} {tokens : List Token} (h : Scans rest tokens) :
    Scans (' ' :: rest) tokens :=
  h.blank (by decide)

theorem Scans.line {rest : List Char} {tokens : List Token} (h : Scans rest tokens) :
    Scans ('\n' :: rest) tokens :=
  h.blank (by decide)

theorem Scans.spaces {rest : List Char} {tokens : List Token} (h : Scans rest tokens) (k : Nat) :
    Scans (List.replicate k ' ' ++ rest) tokens := by
  induction k with
  | zero => exact h
  | succ k ih => exact ih.space

/-- The token that the lexer takes off a text that starts with `c`, and what it leaves. -/
def Takes (c : Char) (text : List Char) (token : Token) (rest : List Char) : Prop :=
  ∃ scanned, scanToken c text = .ok scanned ∧ scanned.token = token ∧ scanned.rest = rest

/-- A token in front of others. -/
theorem Scans.token {c : Char} {text rest : List Char} {token : Token} {tokens : List Token}
    (h : Scans rest tokens) (hb : Text.isBlank c = false) (hc : c ≠ '#')
    (ht : Takes c text token rest) : Scans (c :: text) (token :: tokens) := by
  obtain ⟨scanned, hscan, rfl, rfl⟩ := ht
  have hskip : skipBlank (c :: text) = c :: text := by
    rw [skipBlank, if_neg (by simp [hb]), if_neg hc]
  rw [Scans] at h
  rw [Scans, scan_of_skipBlank hskip, hscan]
  show (scanned.token :: ·) <$> scan scanned.rest = _
  rw [h]
  rfl

/-! ### Marks -/

/-- The marks that are written, as characters. -/
def markText? : Token → Option (List Char)
  | .lBrace => some ['{']
  | .rBrace => some ['}']
  | .lParen => some ['(']
  | .rParen => some [')']
  | .lBracket => some ['[']
  | .rBracket => some [']']
  | .comma => some [',']
  | .eq => some ['=']
  | .at => some ['@']
  | .dot => some ['.']
  | .arrow => some ['-', '>']
  | _ => none

theorem Scans.mark {rest text : List Char} {tokens : List Token} (h : Scans rest tokens)
    {mark : Token} (hm : markText? mark = some text) : Scans (text ++ rest) (mark :: tokens) := by
  cases mark <;> cases hm <;> exact h.token (by decide) (by decide) ⟨_, rfl, rfl, rfl⟩

/-- A mark of one character. -/
theorem Scans.char {rest : List Char} {tokens : List Token} (h : Scans rest tokens) (mark : Token)
    {c : Char} (hm : markText? mark = some [c]) : Scans (c :: rest) (mark :: tokens) :=
  h.mark hm

/-! ### Words -/

theorem isWordStart_iff {c : Char} :
    isWordStart c = true ↔ Text.isLetter c = true ∨ c = '_' := by
  simp [isWordStart]

theorem isBlank_of_isWordStart {c : Char} (h : isWordStart c = true) : Text.isBlank c = false := by
  rcases isWordStart_iff.mp h with h | rfl
  · rw [Bool.eq_false_iff]
    intro hb
    rw [Text.isLetter_of_isBlank hb] at h
    cases h
  · decide

theorem isDigit_of_isWordStart {c : Char} (h : isWordStart c = true) : Text.isDigit c = false := by
  rcases isWordStart_iff.mp h with h | rfl
  · rw [Bool.eq_false_iff]
    intro hd
    rw [Text.isLetter_of_isDigit hd] at h
    cases h
  · decide

/-- The text does not go on with a character of this class. -/
def Stops (p : Char → Bool) (text : List Char) : Prop := ∀ c ∈ text.head?, p c = false

theorem takeWhile_stops {p : Char → Bool} {part rest : List Char} (h : ∀ c ∈ part, p c = true)
    (hs : Stops p rest) : (part ++ rest).takeWhile p = part := by
  have hnone : rest.takeWhile p = [] := by
    cases rest with
    | nil => rfl
    | cons c more => rw [List.takeWhile_cons_of_neg (by simp [hs c rfl])]
  rw [List.takeWhile_append_of_pos h, hnone, List.append_nil]

theorem dropWhile_stops {p : Char → Bool} {part rest : List Char} (h : ∀ c ∈ part, p c = true)
    (hs : Stops p rest) : (part ++ rest).dropWhile p = rest := by
  rw [List.dropWhile_append_of_pos h]
  cases rest with
  | nil => rfl
  | cons c more => rw [List.dropWhile_cons_of_neg (by simp [hs c rfl])]

theorem isWord_iff {word : String} : isWord word = true ↔
    ∃ first more, word.toList = first :: more ∧ isWordStart first = true ∧
      ∀ c ∈ more, isWordPart c = true := by
  unfold isWord
  cases word.toList with
  | nil => simp
  | cons first more =>
      simp only [Bool.and_eq_true, List.all_eq_true]
      constructor
      · exact fun h => ⟨first, more, rfl, h⟩
      · rintro ⟨_, _, he, h⟩
        cases he
        exact h

theorem takes_word {first : Char} {more rest : List Char} (hfirst : isWordStart first = true)
    (hmore : ∀ c ∈ more, isWordPart c = true) (hs : Stops isWordPart rest) :
    Takes first (more ++ rest) (.ident (String.ofList (first :: more))) rest := by
  have hdigit := isDigit_of_isWordStart hfirst
  unfold Takes scanToken
  split
  -- no mark starts a word
  all_goals first
    | exact absurd hfirst (by decide +kernel)
    | rw [if_neg (by simp [hdigit]), if_pos hfirst]
      exact ⟨_, rfl, by rw [takeWhile_stops hmore hs], dropWhile_stops hmore hs⟩

theorem Scans.word {rest : List Char} {tokens : List Token} (h : Scans rest tokens) (word : String)
    (hw : isWord word = true) (hs : Stops isWordPart rest) :
    Scans (word.toList ++ rest) (.ident word :: tokens) := by
  obtain ⟨first, more, hword, hfirst, hmore⟩ := isWord_iff.mp hw
  -- otherwise it would be a comment
  have hne : first ≠ '#' := by
    rintro rfl
    exact absurd hfirst (by decide +kernel)
  have htakes := takes_word hfirst hmore hs
  rw [← hword, String.ofList_toList] at htakes
  rw [hword]
  exact h.token (isBlank_of_isWordStart hfirst) hne htakes

/-! ### Quoted text -/

theorem Scans.quoted {rest : List Char} {tokens : List Token} (h : Scans rest tokens)
    (text : String) : Scans ((Quoted.encode text).toList ++ rest) (.str text :: tokens) := by
  have hencode : (Quoted.encode text).toList ++ rest =
      '"' :: (text.toList.flatMap Quoted.encodeChar ++ '"' :: rest) := by
    simp [Quoted.encode]
  have hdecode := Quoted.decode?_encode text.toList rest
  rw [hencode]
  refine h.token (by decide) (by decide) ?_
  unfold Takes
  simp only [scanToken]
  split
  · rename_i decoded more hsome
    rw [hdecode] at hsome
    cases hsome
    exact ⟨_, rfl, by rw [String.ofList_toList], rfl⟩
  · rename_i hnone
    rw [hdecode] at hnone
    cases hnone

/-! ### Numbers -/

theorem takes_digit {first : Char} (hfirst : Text.isDigit first = true) (text : List Char) :
    Takes first text (scanNumeral false first text).token (scanNumeral false first text).rest := by
  unfold Takes scanToken
  split
  all_goals first
    | exact absurd hfirst (by decide)
    | rw [if_pos hfirst]
      exact ⟨_, rfl, rfl, rfl⟩

theorem takes_minus {first : Char} (hfirst : Text.isDigit first = true) (text : List Char) :
    Takes '-' (first :: text) (scanNumeral true first text).token
      (scanNumeral true first text).rest := by
  -- otherwise it would be an arrow
  have hne : first ≠ '>' := by
    rintro rfl
    exact absurd hfirst (by decide)
  unfold Takes scanToken
  simp only [hfirst, if_true]
  exact ⟨_, rfl, rfl, rfl⟩

/-- The sign of a numeral is taken with its digits. -/
theorem Scans.numeral (negative : Bool) {first : Char} (hfirst : Text.isDigit first = true)
    {text rest : List Char} {token : Token} {tokens : List Token}
    (h : Scans rest tokens) (ht : (scanNumeral negative first text).token = token)
    (hr : (scanNumeral negative first text).rest = rest) :
    Scans (signOf negative ++ first :: text) (token :: tokens) := by
  subst ht hr
  cases negative with
  | false =>
      have hne : first ≠ '#' := by
        rintro rfl
        exact absurd hfirst (by decide)
      exact h.token (Text.isBlank_of_isDigit hfirst) hne (takes_digit hfirst text)
  | true => exact h.token (by decide) (by decide) (takes_minus hfirst text)

theorem scanNumeral_whole (negative : Bool) (first : Char) {digits rest : List Char}
    (hd : AllDigits digits) (hs : Stops Text.isDigit rest) (hp : Stops (· = '.') rest) :
    (scanNumeral negative first (digits ++ rest)).token = wholeToken negative (first :: digits) ∧
      (scanNumeral negative first (digits ++ rest)).rest = rest := by
  have hafter : afterDigits (digits ++ rest) = rest := dropWhile_stops hd hs
  have hleading : leadingDigits (digits ++ rest) = digits := takeWhile_stops hd hs
  unfold scanNumeral
  split
  · rename_i more hpoint
    rw [hafter] at hpoint
    subst hpoint
    exact absurd (hp '.' rfl) (by decide)
  · exact ⟨by rw [hleading], hafter⟩

theorem scanNumeral_point (negative : Bool) (first : Char) {digits fraction rest : List Char}
    (hd : AllDigits digits) (hf : AllDigits fraction) (hs : Stops Text.isDigit rest) :
    (scanNumeral negative first (digits ++ '.' :: (fraction ++ rest))).token =
        .decimal (.ofDigits negative (first :: digits) fraction 0) ∧
      (scanNumeral negative first (digits ++ '.' :: (fraction ++ rest))).rest = rest := by
  have hstop : Stops Text.isDigit ('.' :: (fraction ++ rest)) := by
    intro c hc
    cases hc
    decide
  have hafter : afterDigits (digits ++ '.' :: (fraction ++ rest)) = '.' :: (fraction ++ rest) :=
    dropWhile_stops hd hstop
  have hleading : leadingDigits (digits ++ '.' :: (fraction ++ rest)) = digits :=
    takeWhile_stops hd hstop
  unfold scanNumeral
  split
  · rename_i more hpoint
    rw [hafter] at hpoint
    cases hpoint
    refine ⟨?_, dropWhile_stops hf hs⟩
    rw [hleading, show leadingDigits (fraction ++ rest) = fraction from takeWhile_stops hf hs]
  · rename_i hno
    exact absurd hafter (hno _)

/-- The text that follows does not go on with a character of a word or a numeral. -/
def Ends (text : List Char) : Prop := Stops (fun c => isWordPart c || c = '.') text

theorem Ends.word {text : List Char} (h : Ends text) : Stops isWordPart text := by
  intro c hc
  have := h c hc
  rw [Bool.or_eq_false_iff] at this
  exact this.1

theorem Ends.point {text : List Char} (h : Ends text) : Stops (· = '.') text := by
  intro c hc
  have := h c hc
  rw [Bool.or_eq_false_iff] at this
  exact this.2

theorem Ends.digit {text : List Char} (h : Ends text) : Stops Text.isDigit text := by
  intro c hc
  rw [Bool.eq_false_iff]
  intro hd
  have hnumeral := Text.isNumeral_of_isDigit hd
  have := h.word c hc
  simp [isWordPart, hnumeral] at this

/-- An integer that fits 64 bits. -/
def Fits (n : Int) : Prop := -2 ^ 63 ≤ n ∧ n < 2 ^ 63

theorem wholeToken_eq {n : Int} (h : Fits n) {digits : List Char}
    (hd : natOfDigits digits = n.natAbs) : wholeToken (n < 0) digits = .num n := by
  obtain ⟨hlow, hhigh⟩ := h
  unfold wholeToken
  simp only [hd]
  by_cases hn : n < 0
  · have habs : -(n.natAbs : Int) = n := by omega
    rw [decide_eq_true hn, if_pos rfl, if_pos (by omega), habs]
  · have habs : (n.natAbs : Int) = n := by omega
    rw [decide_eq_false hn, if_neg Bool.false_ne_true, if_pos (by omega), habs]

theorem Scans.int {rest : List Char} {tokens : List Token} (h : Scans rest tokens) {n : Int}
    (hn : Fits n) (he : Ends rest) : Scans ((toString n).toList ++ rest) (.num n :: tokens) := by
  have hdigits := allDigits_toDigits n.natAbs
  have hvalue := natOfDigits_toDigits n.natAbs
  rw [toList_toString_int, List.append_assoc]
  cases htext : Nat.toDigits 10 n.natAbs with
  | nil =>
      have := Nat.length_toDigits_pos (b := 10) (n := n.natAbs)
      rw [htext] at this
      exact absurd this (by decide)
  | cons first digits =>
      rw [htext] at hdigits hvalue
      obtain ⟨htoken, hrest⟩ := scanNumeral_whole (n < 0) first
        (fun c hc => hdigits c (List.mem_cons_of_mem _ hc)) he.digit he.point
      rw [wholeToken_eq hn hvalue] at htoken
      exact h.numeral (n < 0) (hdigits first List.mem_cons_self) htoken hrest

theorem Scans.decimal {rest : List Char} {tokens : List Token} (h : Scans rest tokens)
    {x : Binary64} (hx : x.isFinite = true) (he : Ends rest) :
    Scans ((printDecimal x).toList ++ rest) (.decimal x :: tokens) := by
  match x, hx with
  | .finite negative rank, _ =>
    obtain ⟨n, htext⟩ := printDecimal_eq negative rank
    rw [htext, Numeral.text, List.append_assoc, List.append_assoc]
    cases hwhole : n.whole with
    | nil => exact absurd hwhole n.nonempty
    | cons first digits =>
        have hdigits := n.wholeDigits
        have hreads := n.reads
        rw [hwhole] at hdigits hreads
        obtain ⟨htoken, hrest⟩ := scanNumeral_point negative first
          (fun c hc => hdigits c (List.mem_cons_of_mem _ hc)) n.fractionDigits he.digit
        rw [hreads] at htoken
        exact h.numeral negative (hdigits first List.mem_cons_self) htoken hrest

/-! ## What the lexer guarantees -/

/-- What the lexer guarantees of a token. -/
def Token.Sound : Token → Prop
  | .ident word => isWord word = true
  | .num n => Fits n
  | _ => True

theorem sound_wholeToken (negative : Bool) (digits : List Char) :
    (wholeToken negative digits).Sound := by
  unfold wholeToken
  dsimp only
  split
  · split
    · rename_i hle
      show Fits _
      unfold Fits
      omega
    · trivial
  · split
    · rename_i hlt
      show Fits _
      unfold Fits
      omega
    · trivial

theorem sound_scanNumeral (negative : Bool) (first : Char) (rest : List Char) :
    (scanNumeral negative first rest).token.Sound := by
  unfold scanNumeral
  split
  · trivial
  · exact sound_wholeToken _ _

theorem sound_scanToken {c : Char} {rest : List Char} {scanned : Scanned (rest.length + 1)}
    (h : scanToken c rest = .ok scanned) : scanned.token.Sound := by
  unfold scanToken at h
  split at h
  case h_11 =>
    -- a minus starts an arrow or a numeral
    split at h
    · cases h
      trivial
    · split at h
      · rename_i first more _ _
        cases h
        exact sound_scanNumeral true first more
      · cases h
    · cases h
  case h_12 =>
    split at h
    · cases h
      trivial
    · cases h
  case h_13 =>
    split at h
    · cases h
      exact sound_scanNumeral _ _ _
    · split at h
      · rename_i hstart
        cases h
        refine isWord_iff.mpr ⟨c, _, String.toList_ofList, hstart, fun d hd => ?_⟩
        exact List.mem_takeWhile_imp hd
      · cases h
  all_goals
    cases h
    trivial

/-- All that the lexer gives is sound. -/
theorem sound_scan {text : List Char} {tokens : List Token} (h : scan text = .ok tokens) :
    ∀ t ∈ tokens, t.Sound := by
  induction hlen : text.length using Nat.strongRecOn generalizing text tokens with
  | ind n ih =>
      subst hlen
      cases hskip : skipBlank text with
      | nil =>
          rw [scan_of_skipBlank_nil hskip] at h
          cases h
          simp [Token.Sound]
      | cons c rest =>
          rw [scan_of_skipBlank hskip] at h
          obtain ⟨scanned, hscanned, h⟩ := bind_eq_ok.mp h
          obtain ⟨more, hmore, rfl⟩ := map_eq_ok.mp h
          have hshorter := scanned.shorter
          have hle := length_skipBlank_le text
          rw [hskip, List.length_cons] at hle
          rw [List.forall_mem_cons]
          exact ⟨sound_scanToken hscanned, ih _ (by omega) hmore rfl⟩

end Source

end ErModel
