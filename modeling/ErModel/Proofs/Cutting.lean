import ErModel.Proofs.Lexing

/-!
# How a text is cut into tokens

A text that has tokens is cut into pieces: what means nothing, and then the characters of a token, at
least one. So there are no more tokens than characters, and the end mark behind them. No piece ends
between quotes: a text in which a quote stays open has no tokens.
-/

namespace ErModel.Source

/-! ## Quotes -/

/-- What a character of a text can stand in. -/
inductive Surroundings where
  | plain
  | comment
  | quotes
  /-- Between quotes, right behind a backslash. -/
  | escape
  deriving DecidableEq

namespace Surroundings

/-- What the next character stands in. -/
def behind (surroundings : Surroundings) (c : Char) : Surroundings :=
  match surroundings with
  | .plain => if c = '"' then .quotes else if c = '#' then .comment else .plain
  | .comment => if c = '\n' then .plain else .comment
  | .quotes => if c = '"' then .plain else if c = '\\' then .escape else .quotes
  | .escape => .quotes

/-- A quote is open. -/
def quoted : Surroundings → Bool
  | .quotes | .escape => true
  | .plain | .comment => false

end Surroundings

/-- What follows a text stands in. -/
def surroundings (start : Surroundings) (text : List Char) : Surroundings :=
  text.foldl Surroundings.behind start

/-- A quote is opened in the text, or was open in front of it, and is not closed. -/
def quoteOpen (start : Surroundings) (text : List Char) : Bool := (surroundings start text).quoted

theorem surroundings_append (start : Surroundings) (text rest : List Char) :
    surroundings start (text ++ rest) = surroundings (surroundings start text) rest :=
  List.foldl_append

/-- A character that opens neither quotes nor a comment. -/
def Unmarked (c : Char) : Prop := c ≠ '"' ∧ c ≠ '#'

theorem Unmarked.behind {c : Char} (h : Unmarked c) : Surroundings.behind .plain c = .plain := by
  obtain ⟨hquote, hsign⟩ := h
  simp [Surroundings.behind, hquote, hsign]

theorem surroundings_unmarked {text : List Char} (h : ∀ c ∈ text, Unmarked c) :
    surroundings .plain text = .plain := by
  induction text with
  | nil => rfl
  | cons c rest ih =>
      obtain ⟨hc, hrest⟩ := List.forall_mem_cons.mp h
      show surroundings (Surroundings.behind .plain c) rest = .plain
      rw [hc.behind, ih hrest]

theorem unmarked_of_class {p : Char → Bool} (hquote : p '"' = false) (hsign : p '#' = false)
    {c : Char} (h : p c = true) : Unmarked c := by
  constructor
  · rintro rfl
    exact Bool.false_ne_true (hquote.symm.trans h)
  · rintro rfl
    exact Bool.false_ne_true (hsign.symm.trans h)

theorem unmarked_of_isDigit {c : Char} (h : Text.isDigit c = true) : Unmarked c :=
  unmarked_of_class (by decide) (by decide) h

theorem unmarked_of_isWordStart {c : Char} (h : isWordStart c = true) : Unmarked c :=
  unmarked_of_class (by decide +kernel) (by decide +kernel) h

theorem unmarked_of_isWordPart {c : Char} (h : isWordPart c = true) : Unmarked c :=
  unmarked_of_class (by decide +kernel) (by decide +kernel) h

theorem unmarked_of_isBlank {c : Char} (h : Text.isBlank c = true) : Unmarked c :=
  unmarked_of_class (by decide) (by decide) h

/-! ## What is taken -/

/-- The token that a character starts takes some of what follows, and ends outside quotes. -/
def TakesPlainly (c : Char) (text rest : List Char) : Prop :=
  ∃ taken, text = taken ++ rest ∧ surroundings .plain (c :: taken) = .plain

theorem TakesPlainly.of_unmarked {c : Char} {taken text rest : List Char}
    (htext : text = taken ++ rest) (hc : Unmarked c) (h : ∀ d ∈ taken, Unmarked d) :
    TakesPlainly c text rest :=
  ⟨taken, htext, surroundings_unmarked (List.forall_mem_cons.mpr ⟨hc, h⟩)⟩

theorem scanNumeral_takes (negative : Bool) (first : Char) (text : List Char) :
    ∃ taken, text = taken ++ (scanNumeral negative first text).rest ∧ ∀ d ∈ taken, Unmarked d := by
  have hdigits : ∀ text, ∀ d ∈ leadingDigits text, Unmarked d := fun _ _ hd =>
    unmarked_of_isDigit (List.mem_takeWhile_imp hd)
  have hsplit := leadingDigits_append_afterDigits text
  unfold scanNumeral
  split
  · rename_i more hpoint
    refine ⟨leadingDigits text ++ '.' :: leadingDigits more, ?_, ?_⟩
    · rw [List.append_assoc, List.cons_append, leadingDigits_append_afterDigits, ← hpoint, hsplit]
    · intro d hd
      rcases List.mem_append.mp hd with hd | hd
      · exact hdigits text d hd
      rcases List.mem_cons.mp hd with rfl | hd
      · exact ⟨by decide, by decide⟩
      · exact hdigits more d hd
  · exact ⟨leadingDigits text, hsplit.symm, hdigits text⟩

theorem decode?_takes {text read rest : List Char} (h : Quoted.decode? text = some (read, rest)) :
    ∃ taken, text = taken ++ rest ∧ surroundings .quotes taken = .plain := by
  fun_induction Quoted.decode? text generalizing read rest with
  | case1 | case3 => cases h
  | case2 =>
      cases h
      exact ⟨['"'], rfl, rfl⟩
  | case4 c tail ih =>
      obtain ⟨⟨read, rest⟩, hread, h⟩ := Option.map_eq_some_iff.mp h
      cases h
      obtain ⟨taken, rfl, htaken⟩ := ih hread
      exact ⟨'\\' :: c :: taken, rfl, htaken⟩
  | case5 c tail hquote hend hescape ih =>
      have hplain : c ≠ '\\' := by
        intro hc
        cases tail with
        | nil => exact hend hc rfl
        | cons d rest => exact hescape d rest hc rfl
      obtain ⟨⟨read, rest⟩, hread, h⟩ := Option.map_eq_some_iff.mp h
      cases h
      obtain ⟨taken, rfl, htaken⟩ := ih hread
      refine ⟨c :: taken, rfl, ?_⟩
      show surroundings (Surroundings.behind .quotes c) taken = .plain
      have hstay : Surroundings.behind .quotes c = .quotes :=
        (if_neg hquote).trans (if_neg hplain)
      rw [hstay, htaken]

theorem wholeToken_ne_eof (negative : Bool) (digits : List Char) :
    wholeToken negative digits ≠ .eof := by
  unfold wholeToken
  dsimp only
  split_ifs <;> simp

theorem scanNumeral_ne_eof (negative : Bool) (first : Char) (text : List Char) :
    (scanNumeral negative first text).token ≠ .eof := by
  unfold scanNumeral
  split
  · simp
  · exact wholeToken_ne_eof _ _

/-- **Every token takes the character that it starts with**, and leaves an end of the text; the end
mark is no such token. -/
theorem Takes.plainly {c : Char} {text rest : List Char} {token : Token}
    (h : Takes c text token rest) : token ≠ .eof ∧ TakesPlainly c text rest := by
  obtain ⟨scanned, h, rfl, rfl⟩ := h
  unfold scanToken at h
  split at h
  case h_11 =>
    -- a minus starts an arrow or a numeral
    have hminus : Unmarked '-' := ⟨by decide, by decide⟩
    split at h
    · cases h
      exact ⟨by simp, ['>'], rfl, rfl⟩
    · split at h
      · rename_i first more _ hdigit
        cases h
        obtain ⟨taken, htaken, hplain⟩ := scanNumeral_takes true first more
        have htext : first :: more = (first :: taken) ++ (scanNumeral true first more).rest :=
          congrArg (first :: ·) htaken
        refine ⟨scanNumeral_ne_eof true first more, .of_unmarked htext hminus ?_⟩
        exact List.forall_mem_cons.mpr ⟨unmarked_of_isDigit hdigit, hplain⟩
      · cases h
    · cases h
  case h_12 =>
    split at h
    · rename_i read rest hread
      cases h
      exact ⟨by simp, decode?_takes hread⟩
    · cases h
  case h_13 =>
    split at h
    · rename_i hdigit
      cases h
      obtain ⟨taken, htaken, hplain⟩ := scanNumeral_takes false c text
      exact ⟨scanNumeral_ne_eof _ _ _, .of_unmarked htaken (unmarked_of_isDigit hdigit) hplain⟩
    · split at h
      · rename_i hstart
        cases h
        refine ⟨by simp, .of_unmarked List.takeWhile_append_dropWhile.symm
          (unmarked_of_isWordStart hstart) fun d hd => ?_⟩
        exact unmarked_of_isWordPart (List.mem_takeWhile_imp hd)
      · cases h
  all_goals
    cases h
    exact ⟨by simp, [], rfl, rfl⟩

/-- What means nothing is the start of a text, and no quote is open behind it. -/
theorem skip_drops (text : List Char) :
    (∃ blank, text = blank ++ skipBlank text ∧
      quoteOpen .plain text = quoteOpen .plain (skipBlank text)) ∧
    ∃ blank, text = blank ++ skipComment text ∧
      quoteOpen .comment text = quoteOpen .plain (skipComment text) := by
  induction text with
  | nil => exact ⟨⟨[], rfl, rfl⟩, [], rfl, rfl⟩
  | cons c rest ih =>
      obtain ⟨⟨blank, hblank, hopen⟩, comment, hcomment, hopen'⟩ := ih
      refine ⟨?_, ?_⟩
      · rw [skipBlank]
        split
        · rename_i hc
          refine ⟨c :: blank, congrArg (c :: ·) hblank, ?_⟩
          show quoteOpen (Surroundings.behind .plain c) rest = _
          rw [(unmarked_of_isBlank hc).behind, hopen]
        split
        · rename_i hc
          subst hc
          exact ⟨'#' :: comment, congrArg ('#' :: ·) hcomment, hopen'⟩
        · exact ⟨[], rfl, rfl⟩
      · rw [skipComment]
        split
        · rename_i hc
          subst hc
          exact ⟨'\n' :: blank, congrArg ('\n' :: ·) hblank, hopen⟩
        · rename_i hc
          refine ⟨c :: comment, congrArg (c :: ·) hcomment, ?_⟩
          show quoteOpen (Surroundings.behind .comment c) rest = _
          rw [show Surroundings.behind .comment c = .comment from if_neg hc, hopen']

/-! ## Pieces -/

/-- A text comes apart into tokens: what means nothing, and the characters of the first token, at least
one; then the same with what follows. At the end only what means nothing is left. -/
inductive CutInto : List Char → List Token → Prop
  | nothing {text : List Char} (h : skipBlank text = []) : CutInto text [.eof]
  | token {text blank taken rest : List Char} {c : Char} {token : Token} {tokens : List Token}
      (pieces : text = blank ++ c :: (taken ++ rest)) (starts : skipBlank text = c :: (taken ++ rest))
      (takes : Takes c (taken ++ rest) token rest) (more : CutInto rest tokens) :
      CutInto text (token :: tokens)

/-- What a scan that succeeds has done first. -/
theorem scan_eq_ok {text : List Char} {tokens : List Token} (h : scan text = .ok tokens) :
    skipBlank text = [] ∧ tokens = [.eof] ∨
      ∃ c behind token rest more, skipBlank text = c :: behind ∧ Takes c behind token rest ∧
        scan rest = .ok more ∧ tokens = token :: more := by
  cases hskip : skipBlank text with
  | nil =>
      rw [scan_of_skipBlank_nil hskip] at h
      cases h
      exact Or.inl ⟨rfl, rfl⟩
  | cons c behind =>
      rw [scan_of_skipBlank hskip] at h
      obtain ⟨scanned, hscanned, h⟩ := bind_eq_ok.mp h
      obtain ⟨more, hmore, rfl⟩ := map_eq_ok.mp h
      exact Or.inr ⟨c, behind, _, _, more, rfl, ⟨scanned, hscanned, rfl, rfl⟩, hmore, rfl⟩

theorem cutInto_of_scan {text : List Char} {tokens : List Token} (h : scan text = .ok tokens) :
    CutInto text tokens := by
  induction hlen : text.length using Nat.strongRecOn generalizing text tokens with
  | ind n ih =>
      subst hlen
      rcases scan_eq_ok h with ⟨hskip, rfl⟩ | ⟨c, behind, token, rest, more, hskip, htakes, hmore, rfl⟩
      · exact .nothing hskip
      · obtain ⟨-, taken, rfl, -⟩ := htakes.plainly
        obtain ⟨⟨blank, hblank, -⟩, -⟩ := skip_drops text
        rw [hskip] at hblank
        have hshorter : rest.length < text.length := by
          rw [hblank]
          simp only [List.length_append, List.length_cons]
          omega
        exact .token hblank hskip htakes (ih _ hshorter hmore rfl)

/-- The end mark is there once, at the end. -/
def Ended (tokens : List Token) : Prop := ∃ read, tokens = read ++ [.eof] ∧ .eof ∉ read

theorem CutInto.ended {text : List Char} {tokens : List Token} (h : CutInto text tokens) :
    Ended tokens := by
  induction h with
  | nothing => exact ⟨[], rfl, List.not_mem_nil⟩
  | @token _ _ _ _ _ token _ _ _ takes _ ih =>
      obtain ⟨read, rfl, hread⟩ := ih
      refine ⟨token :: read, rfl, fun hmem => ?_⟩
      exact (List.mem_cons.mp hmem).elim (fun he => takes.plainly.1 he.symm) hread

/-- A text has at most as many tokens as characters, and the end mark. -/
theorem CutInto.length_le {text : List Char} {tokens : List Token} (h : CutInto text tokens) :
    tokens.length ≤ text.length + 1 := by
  induction h with
  | nothing => exact Nat.succ_le_succ (Nat.zero_le _)
  | token pieces _ _ _ ih =>
      rw [pieces]
      simp only [List.length_cons, List.length_append]
      omega

/-- **A text in which a quote stays open has no tokens.** -/
theorem CutInto.quoteOpen_eq {text : List Char} {tokens : List Token} (h : CutInto text tokens) :
    quoteOpen .plain text = false := by
  induction h with
  | @nothing text h =>
      obtain ⟨⟨_, -, hopen⟩, -⟩ := skip_drops text
      rw [hopen, h]
      rfl
  | @token text _ taken rest c _ _ _ starts takes _ ih =>
      obtain ⟨⟨_, -, hopen⟩, -⟩ := skip_drops text
      obtain ⟨-, taken', htaken, hplain⟩ := takes.plainly
      obtain rfl : taken = taken' := List.append_cancel_right htaken
      rw [hopen, starts, quoteOpen, ← List.cons_append, surroundings_append, hplain]
      exact ih

end ErModel.Source
