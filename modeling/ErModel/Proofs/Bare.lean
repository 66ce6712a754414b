import ErModel.Proofs.Lexing
import ErModel.Proofs.Parsing

/-!
# Default values without quotes

A default value that is a word or a call stands in the source without quotes, and is read back as
the text that its tokens make. Not every text survives this: blanks and comments between the tokens
are lost, and so are most marks. A text stays what it is if reading it alone gives it back. Then it
stays so whatever follows, because its last token cannot go on behind it and it cannot end in a
comment: the number sign of the comment would be missing from what is read.
-/

namespace ErModel.Source

/-! ## Reading default values -/

section

variable {tokens rest : List Token} {text : String}

instance {α : Type} [DecidableEq α] {bound : Nat} (parsed : Parse α bound) (value : α)
    (rest : List Token) : Decidable (Reads parsed value rest) :=
  match parsed with
  | .ok r => decidable_of_iff (r.value = value ∧ r.rest = rest) <| by
      constructor
      · rintro ⟨rfl, rfl⟩
        exact ⟨r.shorter, rfl⟩
      · rintro ⟨_, h⟩
        cases h
        exact ⟨rfl, rfl⟩
  | .error _ => .isFalse fun ⟨_, h⟩ => nomatch h

/-- The tokens between the brackets of a call. -/
def Inside (args : List Token) : Prop := ∀ token ∈ args, token ≠ .rParen ∧ token ≠ .eof

/-- Arguments are read up to the first closing bracket. -/
theorem reads_callArguments : Reads (callArguments tokens) text rest ↔
    ∃ args, tokens = args ++ .rParen :: rest ∧ Inside args ∧
      text = String.join (args.map Token.inCall) := by
  constructor
  · intro h
    fun_induction callArguments tokens generalizing text with
    | case1 | case2 =>
        obtain ⟨_, h⟩ := h
        cases h
    | case3 rest =>
        obtain ⟨_, h⟩ := h
        cases h
        exact ⟨[], rfl, by simp [Inside], rfl⟩
    | case4 token behind heof hparen ih =>
        obtain ⟨shorter, h⟩ := h
        obtain ⟨⟨more, rest', h'⟩, hmore, h⟩ := bind_eq_ok.mp h
        cases h
        obtain ⟨args, rfl, hinside, rfl⟩ := ih ⟨h', hmore⟩
        refine ⟨token :: args, rfl, ?_, by rw [List.map_cons, String.join_cons]⟩
        exact List.forall_mem_cons.mpr ⟨⟨hparen, heof⟩, hinside⟩
  · rintro ⟨args, rfl, hinside, rfl⟩
    induction args with
    | nil => exact ⟨_, rfl⟩
    | cons token args ih =>
        obtain ⟨⟨hparen, heof⟩, hinside⟩ := List.forall_mem_cons.mp hinside
        rw [List.cons_append, callArguments]
        · refine (ih hinside).bind fun _ => ?_
          rw [List.map_cons, String.join_cons]
          exact ⟨_, rfl⟩
        · exact heof
        · exact hparen

/-- The text of a call. -/
def callText (word : String) (args : List Token) : String :=
  word ++ "(" ++ String.join (args.map Token.inCall) ++ ")"

/-- What is read without quotes is a word that no bracket follows, or a call. -/
theorem reads_defaultValue_ident : Reads (defaultValue tokens) (.ident text) rest ↔
    (tokens = .ident text :: rest ∧ peek rest ≠ .lParen) ∨
      ∃ word args, tokens = .ident word :: .lParen :: (args ++ .rParen :: rest) ∧ Inside args ∧
        text = callText word args := by
  constructor
  · rintro ⟨shorter, h⟩
    unfold defaultValue at h
    split at h
    · obtain ⟨⟨more, rest', h'⟩, hmore, h⟩ := bind_eq_ok.mp h
      cases h
      obtain ⟨args, rfl, hinside, rfl⟩ := reads_callArguments.mp ⟨h', hmore⟩
      exact Or.inr ⟨_, args, rfl, hinside, rfl⟩
    · rename_i word behind hparen
      cases h
      refine Or.inl ⟨rfl, fun hpeek => ?_⟩
      cases rest with
      | nil => cases hpeek
      | cons token more => exact hparen more (congrArg (· :: more) hpeek)
    all_goals cases h
  · rintro (⟨rfl, hpeek⟩ | ⟨word, args, rfl, hinside, rfl⟩)
    · rw [defaultValue]
      · exact ⟨_, rfl⟩
      · rintro more rfl
        exact hpeek rfl
    · rw [defaultValue]
      refine (reads_callArguments.mpr ⟨args, rfl, hinside, rfl⟩).bind fun _ => ?_
      exact ⟨_, rfl⟩

end

/-! ## Texts that go on -/

section

variable {p : Char → Bool} {other : List Char}

theorem stops_dropWhile (text : List Char) (hs : Stops p other) :
    Stops p (text.dropWhile p ++ other) := by
  intro c hc
  cases hdrop : text.dropWhile p with
  | nil =>
      rw [hdrop] at hc
      exact hs c hc
  | cons d more =>
      rw [hdrop] at hc
      cases hc
      have hhead := List.head?_dropWhile_not p text
      rw [hdrop] at hhead
      simpa using hhead

theorem ends_nil : Ends [] := fun _ hc => nomatch hc

theorem scanNumeral_goesOn (negative : Bool) (first : Char) (text : List Char) (he : Ends other) :
    (scanNumeral negative first (text ++ other)).token = (scanNumeral negative first text).token ∧
      (scanNumeral negative first (text ++ other)).rest =
        (scanNumeral negative first text).rest ++ other := by
  -- what is read does not depend on what follows, so it is what is read if nothing follows
  suffices h : ∃ token rest, ∀ other, Ends other →
      (scanNumeral negative first (text ++ other)).token = token ∧
        (scanNumeral negative first (text ++ other)).rest = rest ++ other by
    obtain ⟨token, rest, h⟩ := h
    obtain ⟨htoken, hrest⟩ := h other he
    obtain ⟨htoken', hrest'⟩ := h [] ends_nil
    rw [List.append_nil] at htoken' hrest'
    rw [htoken, hrest, htoken', hrest', List.append_nil]
    exact ⟨rfl, rfl⟩
  have hdigits : ∀ text, AllDigits (leadingDigits text) := fun _ _ hc => List.mem_takeWhile_imp hc
  have hstops : ∀ text other, Ends other → Stops Text.isDigit (afterDigits text ++ other) :=
    fun text _ he => stops_dropWhile text he.digit
  have hsplit := leadingDigits_append_afterDigits text
  by_cases hpoint : ∃ more, afterDigits text = '.' :: more
  · obtain ⟨more, hmore⟩ := hpoint
    refine ⟨.decimal (.ofDigits negative (first :: leadingDigits text) (leadingDigits more) 0),
      afterDigits more, fun other he => ?_⟩
    have htext : text ++ other = leadingDigits text ++ '.' ::
        (leadingDigits more ++ (afterDigits more ++ other)) := by
      rw [← List.append_assoc (leadingDigits more), leadingDigits_append_afterDigits,
        ← List.cons_append, ← hmore, ← List.append_assoc, hsplit]
    rw [htext]
    exact scanNumeral_point negative first (hdigits text) (hdigits more) (hstops more other he)
  · refine ⟨wholeToken negative (first :: leadingDigits text), afterDigits text, fun other he => ?_⟩
    have htext : text ++ other = leadingDigits text ++ (afterDigits text ++ other) := by
      rw [← List.append_assoc, hsplit]
    have hno : Stops (· = '.') (afterDigits text ++ other) := by
      intro c hc
      cases hafter : afterDigits text with
      | nil =>
          rw [hafter] at hc
          exact he.point c hc
      | cons d more =>
          rw [hafter] at hc
          cases hc
          refine decide_eq_false fun hd => hpoint ⟨more, ?_⟩
          rw [hafter, hd]
    rw [htext]
    exact scanNumeral_whole negative first (hdigits text) (hstops text other he) hno

theorem decode?_goesOn {text read rest : List Char} (h : Quoted.decode? text = some (read, rest)) :
    Quoted.decode? (text ++ other) = some (read, rest ++ other) := by
  fun_induction Quoted.decode? text generalizing read rest with
  | case1 | case3 => cases h
  | case2 =>
      cases h
      rfl
  | case4 c tail ih =>
      obtain ⟨⟨read, rest⟩, hread, h⟩ := Option.map_eq_some_iff.mp h
      cases h
      simp only [List.cons_append, Quoted.decode?, ih hread, Option.map_some]
  | case5 c tail hquote hend hescape ih =>
      have hplain : c ≠ '\\' := by
        intro hc
        cases tail with
        | nil => exact hend hc rfl
        | cons d rest => exact hescape d rest hc rfl
      obtain ⟨⟨read, rest⟩, hread, h⟩ := Option.map_eq_some_iff.mp h
      cases h
      rw [List.cons_append, Quoted.decode?, ih hread]
      · rfl
      · exact hquote
      · exact fun hc => absurd hc hplain
      · exact fun _ _ hc => absurd hc hplain

/-- A token that ends within a text is there whatever follows the text. -/
theorem takes_goesOn {c : Char} {text : List Char} {scanned : Scanned (text.length + 1)}
    (h : scanToken c text = .ok scanned) (he : Ends other) :
    Takes c (text ++ other) scanned.token (scanned.rest ++ other) := by
  unfold scanToken at h
  split at h
  case h_11 =>
    -- a minus starts an arrow or a numeral
    split at h
    · cases h
      exact ⟨_, rfl, rfl, rfl⟩
    · split at h
      · rename_i first more _ hdigit
        cases h
        obtain ⟨htoken, hrest⟩ := scanNumeral_goesOn true first more he
        have htakes := takes_minus hdigit (more ++ other)
        rwa [htoken, hrest] at htakes
      · cases h
    · cases h
  case h_12 =>
    split at h
    · rename_i read rest hread
      cases h
      have hgoesOn : Quoted.decode? (text ++ other) = _ := decode?_goesOn hread
      unfold Takes
      simp only [scanToken]
      split
      · rename_i read' rest' hread'
        rw [hgoesOn] at hread'
        cases hread'
        exact ⟨_, rfl, rfl, rfl⟩
      · rename_i hnone
        rw [hgoesOn] at hnone
        cases hnone
    · cases h
  case h_13 =>
    split at h
    · rename_i hdigit
      cases h
      obtain ⟨htoken, hrest⟩ := scanNumeral_goesOn false c text he
      have htakes := takes_digit hdigit (text ++ other)
      rwa [htoken, hrest] at htakes
    · split at h
      · rename_i hstart
        cases h
        have hall : ∀ d ∈ text.takeWhile isWordPart, isWordPart d = true :=
          fun d hd => List.mem_takeWhile_imp hd
        have htakes := takes_word hstart hall (stops_dropWhile text he.word)
        rwa [← List.append_assoc, List.takeWhile_append_dropWhile] at htakes
      · cases h
  all_goals
    cases h
    exact ⟨_, rfl, rfl, rfl⟩

end

/-! ### Blanks and comments -/

/-- What becomes of a text when blanks and comments at its start are dropped, whatever follows it: it
has a token, or all of it is dropped and what follows is read as behind a blank, or as a comment. The
last can only be if `comment` holds. -/
inductive Drops (drop : List Char → List Char) (text : List Char) (comment : Prop) : Prop
  | token (c : Char) (rest : List Char) (sub : (c :: rest).Sublist text)
      (eq : ∀ other, drop (text ++ other) = c :: (rest ++ other))
  | blank (eq : ∀ other, drop (text ++ other) = skipBlank other)
  | comment (holds : comment) (eq : ∀ other, drop (text ++ other) = skipComment other)

theorem Drops.cons {drop drop' : List Char → List Char} {text : List Char} {comment comment' : Prop}
    {d : Char} (h : Drops drop text comment) (hd : ∀ more, drop' (d :: more) = drop more)
    (hc : comment → comment') : Drops drop' (d :: text) comment' := by
  cases h with
  | token c rest sub eq => exact .token c rest (sub.cons d) fun other => (hd _).trans (eq other)
  | blank eq => exact .blank fun other => (hd _).trans (eq other)
  | comment holds eq => exact .comment (hc holds) fun other => (hd _).trans (eq other)

/-- A comment starts with a number sign. -/
theorem drops (text : List Char) :
    Drops skipBlank text ('#' ∈ text) ∧ Drops skipComment text True := by
  induction text with
  | nil => exact ⟨.blank fun _ => rfl, .comment trivial fun _ => rfl⟩
  | cons c rest ih =>
      refine ⟨?_, ?_⟩
      · by_cases hblank : Text.isBlank c = true
        · exact ih.1.cons (fun more => by rw [skipBlank, if_pos hblank]) (List.mem_cons_of_mem _)
        by_cases hsign : c = '#'
        · subst hsign
          exact ih.2.cons (fun more => by rw [skipBlank, if_neg hblank, if_pos rfl])
            fun _ => List.mem_cons_self
        · refine .token c rest (List.Sublist.refl _) fun other => ?_
          rw [List.cons_append, skipBlank, if_neg hblank, if_neg hsign]
      · by_cases hline : c = '\n'
        · exact ih.1.cons (fun more => by rw [skipComment, if_pos hline]) fun _ => trivial
        · exact ih.2.cons (fun more => by rw [skipComment, if_neg hline]) fun _ => trivial

/-! ### Number signs -/

/-- No token but a quoted text has a number sign in it. -/
theorem sign_not_mem_inCall {token : Token} (h : token.Sound) (hs : ∀ text, token ≠ .str text) :
    '#' ∉ token.inCall.toList := by
  have hdigits : ∀ {text : List Char}, AllDigits text → '#' ∉ text := fun htext hmem =>
    absurd (htext '#' hmem) (by decide)
  have hsigns : ∀ negative, '#' ∉ signOf negative := by decide
  cases token with
  | str text => exact absurd rfl (hs text)
  | ident word =>
      obtain ⟨first, more, hword, hfirst, hmore⟩ := isWord_iff.mp h
      rw [show (Token.ident word).inCall = word from rfl, hword, List.mem_cons, not_or]
      refine ⟨?_, fun hmem => absurd (hmore _ hmem) (by decide +kernel)⟩
      rintro rfl
      exact absurd hfirst (by decide +kernel)
  | num n =>
      rw [show (Token.num n).inCall = toString n from rfl, toList_toString_int, List.mem_append, not_or]
      exact ⟨hsigns _, hdigits (allDigits_toDigits _)⟩
  | decimal x =>
      show '#' ∉ (Layout.plain.write x).toList
      cases x with
      | nan => decide
      | infinite negative => cases negative <;> decide
      | finite negative rank =>
        obtain ⟨text, hwrite, hcases⟩ := magnitude_plain negative rank
        rw [hwrite, String.toList_ofList, List.mem_append, not_or]
        refine ⟨hsigns _, ?_⟩
        rcases hcases with ⟨n, rfl⟩ | ⟨n, rfl, -⟩
        · rw [List.mem_append, List.mem_cons, not_or, not_or]
          exact ⟨hdigits n.wholeDigits, by decide, hdigits n.fractionDigits⟩
        · exact hdigits n.wholeDigits
  | _ => simp [Token.inCall]

theorem count_decode? {text read rest : List Char} (h : Quoted.decode? text = some (read, rest)) :
    read.count '#' + rest.count '#' ≤ text.count '#' := by
  fun_induction Quoted.decode? text generalizing read rest with
  | case1 | case3 => cases h
  | case2 =>
      cases h
      simp
  | case4 c tail ih =>
      obtain ⟨⟨read, rest⟩, hread, h⟩ := Option.map_eq_some_iff.mp h
      cases h
      -- no other character stands for a number sign behind a backslash
      have hc : Quoted.unescape c = '#' → c = '#' := by
        unfold Quoted.unescape
        split_ifs <;> simp
      have := ih hread
      by_cases hsign : c = '#'
      · rw [hsign, show Quoted.unescape '#' = '#' from by decide, List.count_cons_self]
        simp only [List.count_cons_self, List.count_cons_of_ne (show '\\' ≠ '#' by decide)]
        omega
      · simp only [List.count_cons, beq_iff_eq, if_neg (mt hc hsign)]
        omega
  | case5 c tail hquote hend hescape ih =>
      obtain ⟨⟨read, rest⟩, hread, h⟩ := Option.map_eq_some_iff.mp h
      cases h
      have := ih hread
      simp only [List.count_cons]
      omega

/-- A numeral is no quoted text, and what follows it is part of the text. -/
theorem scanNumeral_plain (negative : Bool) (first : Char) (text : List Char) :
    (∀ read, (scanNumeral negative first text).token ≠ .str read) ∧
      (scanNumeral negative first text).rest.Sublist text := by
  have hafter : ∀ text, (afterDigits text).Sublist text := fun _ => List.dropWhile_sublist _
  unfold scanNumeral
  split
  · rename_i more hpoint
    refine ⟨by simp, (hafter more).trans ?_⟩
    exact (List.sublist_cons_self _ _).trans (hpoint ▸ hafter text)
  · refine ⟨fun read => ?_, hafter text⟩
    unfold wholeToken
    dsimp only
    split_ifs <;> simp

/-- A token has no more number signs in it than the characters that are taken for it. -/
theorem count_scanToken {c : Char} {text : List Char} {scanned : Scanned (text.length + 1)}
    (h : scanToken c text = .ok scanned) :
    scanned.token.inCall.toList.count '#' + scanned.rest.count '#' ≤ (c :: text).count '#' := by
  have hsound := sound_scanToken h
  -- but for a quoted text, it is enough that the rest is part of the text
  have hplain : (∀ read, scanned.token ≠ .str read) → scanned.rest.Sublist text →
      scanned.token.inCall.toList.count '#' + scanned.rest.count '#' ≤ (c :: text).count '#' := by
    intro hs hsub
    rw [List.count_eq_zero.mpr (sign_not_mem_inCall hsound hs), Nat.zero_add]
    exact (hsub.cons c).count_le '#'
  unfold scanToken at h
  split at h
  case h_11 =>
    split at h
    · cases h
      exact hplain (by simp) (List.sublist_cons_self _ _)
    · split at h
      · rename_i first more _ _
        cases h
        obtain ⟨hstr, hsub⟩ := scanNumeral_plain true first more
        exact hplain hstr (hsub.cons first)
      · cases h
    · cases h
  case h_12 =>
    split at h
    · rename_i read rest hread
      cases h
      have := count_decode? hread
      have hcall : (Token.str (String.ofList read)).inCall.toList = '"' :: (read ++ ['"']) := by
        simp [Token.inCall]
      have hquote : '"' ≠ '#' := by decide
      simp only [hcall, List.count_append, List.count_cons_of_ne hquote, List.count_nil]
      omega
    · cases h
  case h_13 =>
    split at h
    · cases h
      obtain ⟨hstr, hsub⟩ := scanNumeral_plain false c text
      exact hplain hstr hsub
    · split at h
      · cases h
        exact hplain (by simp) (List.dropWhile_sublist _)
      · cases h
  all_goals
    cases h
    exact hplain (by simp) (List.Sublist.refl _)

/-- The number signs in what tokens add to the text of a call. -/
def signs (tokens : List Token) : Nat := (tokens.flatMap fun t => t.inCall.toList).count '#'

theorem scan_of_skipBlank_eq {text text' : List Char} (h : skipBlank text = skipBlank text') :
    scan text = scan text' := by
  cases hskip : skipBlank text' with
  | nil => rw [scan_of_skipBlank_nil (h.trans hskip), scan_of_skipBlank_nil hskip]
  | cons c rest => rw [scan_of_skipBlank (h.trans hskip), scan_of_skipBlank hskip]

/-- **A text that does not end in a comment has the same tokens whatever follows it.** If it does,
there are fewer number signs in its tokens than in the text. -/
theorem scan_goesOn {text : List Char} {tokens : List Token} (h : Scans text tokens) :
    ∃ read, tokens = read ++ [.eof] ∧
      ((∀ other behind, Ends other → Scans other behind → Scans (text ++ other) (read ++ behind)) ∨
        signs read < text.count '#') := by
  induction hlength : text.length using Nat.strongRecOn generalizing text tokens with
  | ind n ih =>
      subst hlength
      cases (drops text).1 with
      | blank eq =>
          have hskip : skipBlank text = [] := by simpa [skipBlank] using eq []
          rw [Scans, scan_of_skipBlank_nil hskip] at h
          cases h
          refine ⟨[], rfl, Or.inl fun other behind _ hother => ?_⟩
          exact (scan_of_skipBlank_eq (eq other)).trans hother
      | comment hmem eq =>
          have hskip : skipBlank text = [] := by simpa [skipComment] using eq []
          rw [Scans, scan_of_skipBlank_nil hskip] at h
          cases h
          exact ⟨[], rfl, Or.inr (List.count_pos_iff.mpr hmem)⟩
      | token c rest sub eq =>
          have hskip : skipBlank text = c :: rest := by simpa using eq []
          rw [Scans, scan_of_skipBlank hskip] at h
          obtain ⟨scanned, hscanned, h⟩ := bind_eq_ok.mp h
          obtain ⟨more, hmore, rfl⟩ := map_eq_ok.mp h
          have hlt := scanned.shorter
          have hle := sub.length_le
          rw [List.length_cons] at hle
          obtain ⟨read, rfl, hread⟩ := ih _ (by omega) hmore rfl
          refine ⟨scanned.token :: read, rfl, ?_⟩
          rcases hread with hread | hread
          · refine Or.inl fun other behind he hother => ?_
            obtain ⟨scanned', hscanned', htoken, hrest⟩ := takes_goesOn hscanned he
            rw [Scans, scan_of_skipBlank (eq other), hscanned']
            show (scanned'.token :: ·) <$> scan scanned'.rest = _
            rw [hrest, htoken, hread other behind he hother]
            rfl
          · have hcount := count_scanToken hscanned
            have htext := sub.count_le '#'
            refine Or.inr ?_
            rw [signs, List.flatMap_cons, List.count_append]
            unfold signs at hread
            omega

/-! ## Texts that stay what they are -/

/-- Reading the text alone, without quotes, gives a default value that is this text, and nothing is
left. -/
def StaysBare (text : String) : Prop :=
  ∃ read, tokens text = .ok read ∧ Reads (defaultValue read) (.ident text) [.eof]

instance (text : String) : Decidable (StaysBare text) :=
  match h : tokens text with
  | .ok read => decidable_of_iff (Reads (defaultValue read) (.ident text) [.eof]) <| by
      constructor
      · exact fun hread => ⟨read, h, hread⟩
      · rintro ⟨_, h', hread⟩
        cases h.symm.trans h'
        exact hread
  | .error _ => .isFalse fun ⟨_, h', _⟩ => nomatch h.symm.trans h'

/-- The tokens of a text that stays what it is without quotes. -/
def bareTokens (text : String) : List Token := ((tokens text).toOption.getD []).dropLast

theorem bareTokens_eq {text : String} {read : List Token} (h : tokens text = .ok (read ++ [.eof])) :
    bareTokens text = read := by
  rw [bareTokens, h]
  simp [Except.toOption]

/-- Such a text is a word or a call. -/
theorem StaysBare.isCall {text : String} (h : StaysBare text) :
    tokens text = .ok (bareTokens text ++ [.eof]) ∧ (bareTokens text = [.ident text] ∨
      ∃ word args, bareTokens text = .ident word :: .lParen :: (args ++ [.rParen]) ∧ Inside args ∧
        text = callText word args) := by
  obtain ⟨all, hall, hread⟩ := h
  rcases reads_defaultValue_ident.mp hread with ⟨rfl, -⟩ | ⟨word, args, rfl, hinside, rfl⟩
  · have hbare := bareTokens_eq (show tokens text = .ok ([.ident text] ++ [.eof]) from hall)
    exact ⟨by rw [hall, hbare]; rfl, Or.inl hbare⟩
  · have hall : tokens (callText word args) =
        .ok ((.ident word :: .lParen :: (args ++ [.rParen])) ++ [.eof]) := by simpa using hall
    have hbare := bareTokens_eq hall
    exact ⟨by rw [hall, hbare], Or.inr ⟨word, args, hbare, hinside, rfl⟩⟩

/-- What is read of a call has all the number signs of its text in it. -/
theorem signs_callText (word : String) (args : List Token) :
    signs (.ident word :: .lParen :: (args ++ [.rParen])) =
      (callText word args).toList.count '#' := by
  have hargs : (String.join (args.map Token.inCall)).toList.count '#' = signs args := by
    rw [String.toList_join, List.flatMap_map]
    rfl
  simp only [callText, String.toList_append, List.count_append, hargs]
  simp [signs, Token.inCall]

/-- **A text that stays what it is has its tokens whatever follows it.** -/
theorem StaysBare.scans {text : String} (h : StaysBare text) {other : List Char}
    {behind : List Token} (ho : Scans other behind) (he : Ends other) :
    Scans (text.toList ++ other) (bareTokens text ++ behind) := by
  obtain ⟨htokens, hcases⟩ := h.isCall
  obtain ⟨read, heq, hgoesOn⟩ := scan_goesOn htokens
  obtain rfl := List.append_cancel_right heq
  rcases hgoesOn with hgoesOn | hlost
  · exact hgoesOn other behind he ho
  · -- no number sign is lost, so the text does not end in a comment
    have hkept : signs (bareTokens text) = text.toList.count '#' := by
      rcases hcases with hword | ⟨word, args, hcall, -, htext⟩
      · rw [hword]
        simp [signs, Token.inCall]
      · rw [hcall, htext]
        exact signs_callText word args
    omega

/-- It is read as itself whatever follows, unless that makes a call of a word. -/
theorem StaysBare.reads {text : String} (h : StaysBare text) {behind : List Token}
    (hb : peek behind ≠ .lParen) :
    Reads (defaultValue (bareTokens text ++ behind)) (.ident text) behind := by
  rw [reads_defaultValue_ident]
  rcases h.isCall.2 with hword | ⟨word, args, hcall, hinside, htext⟩
  · exact Or.inl ⟨by rw [hword]; rfl, hb⟩
  · exact Or.inr ⟨word, args, by simp [hcall], hinside, htext⟩

theorem tokens_word {word : String} (h : isWord word = true) :
    tokens word = .ok [.ident word, .eof] := by
  have hscans := scans_nil.word word h (fun _ hc => nomatch hc)
  rwa [List.append_nil] at hscans

/-- Words stay what they are. -/
theorem staysBare_word {word : String} (h : isWord word = true) : StaysBare word :=
  ⟨_, tokens_word h, reads_defaultValue_ident.mpr (Or.inl ⟨rfl, by simp [peek]⟩)⟩

end ErModel.Source
