import ErModel.Proofs.Printable

/-!
# Brackets that are closed

A parser that reads something leaves no bracket open that it has met: what is open in front of the
tokens that it leaves is what was open in front of its own, but for the bracket that it was to close.
So a text that is a document has no bracket that stays open. Between round brackets all tokens are
only text, and nothing opens there.
-/

namespace ErModel.Source

/-- The kinds of brackets. -/
inductive Bracket where
  | round
  | square
  | curly
  deriving DecidableEq

/-- The brackets that are open behind a token, the innermost first, if these are open in front of it. -/
def Bracket.behind (outer : List Bracket) (token : Token) : List Bracket :=
  match outer, token with
  | .round :: outer, .rParen => outer
  | .round :: outer, _ => .round :: outer
  | .square :: outer, .rBracket => outer
  | .curly :: outer, .rBrace => outer
  | outer, .lParen => .round :: outer
  | outer, .lBracket => .square :: outer
  | outer, .lBrace => .curly :: outer
  | outer, _ => outer

/-- The brackets that are open at the end mark, if these are open in front of the tokens. -/
def openBrackets (outer : List Bracket) : List Token → List Bracket
  | [] => outer
  | token :: rest =>
    if token = .eof then outer else openBrackets (Bracket.behind outer token) rest

variable {outer : List Bracket} {tokens : List Token}

/-- The brackets do not stand between round ones. -/
def Nested (outer : List Bracket) : Prop := outer.head? ≠ some .round

theorem nested_nil : Nested [] := nofun
theorem nested_curly : Nested (.curly :: outer) := nofun
theorem nested_square : Nested (.square :: outer) := nofun

/-- A token that is no bracket, and not the end mark. -/
def Token.isPlain : Token → Bool
  | .lParen | .rParen | .lBracket | .rBracket | .lBrace | .rBrace | .eof => false
  | _ => true

theorem openBrackets_plain (ho : Nested outer) {token : Token} (ht : token.isPlain = true)
    (rest : List Token) : openBrackets outer (token :: rest) = openBrackets outer rest := by
  match outer, ho with
  | [], _ | .square :: _, _ | .curly :: _, _ => cases token <;> first | rfl | cases ht

theorem openBrackets_lParen (ho : Nested outer) (rest : List Token) :
    openBrackets outer (.lParen :: rest) = openBrackets (.round :: outer) rest := by
  match outer, ho with
  | [], _ | .square :: _, _ | .curly :: _, _ => rfl

theorem openBrackets_lBracket (ho : Nested outer) (rest : List Token) :
    openBrackets outer (.lBracket :: rest) = openBrackets (.square :: outer) rest := by
  match outer, ho with
  | [], _ | .square :: _, _ | .curly :: _, _ => rfl

theorem openBrackets_lBrace (ho : Nested outer) (rest : List Token) :
    openBrackets outer (.lBrace :: rest) = openBrackets (.curly :: outer) rest := by
  match outer, ho with
  | [], _ | .square :: _, _ | .curly :: _, _ => rfl

theorem openBrackets_inCall {token : Token} (hne : token ≠ .eof) (hp : token ≠ .rParen)
    (rest : List Token) :
    openBrackets (.round :: outer) (token :: rest) = openBrackets (.round :: outer) rest := by
  rw [openBrackets, if_neg hne]
  cases token <;> first | rfl | exact absurd rfl hp

/-! ## What parsers close -/

/-- If the parser reads something, then `outer` is open in front of the tokens that it leaves, where
`inner` was open in front of `tokens`. -/
def Closes {α : Type} {bound : Nat} (inner : List Bracket) (tokens : List Token)
    (outer : List Bracket) (parsed : Parse α bound) : Prop :=
  ∀ r, parsed = .ok r → openBrackets inner tokens = openBrackets outer r.rest

section

variable {inner middle : List Bracket} {α β : Type} {m n : Nat}

theorem closes_ok {value : α} {rest : List Token} {shorter : rest.length < n}
    (h : openBrackets inner tokens = openBrackets outer rest) :
    Closes inner tokens outer (.ok ⟨value, rest, shorter⟩ : Parse α n) := by
  rintro _ ⟨⟩
  exact h

theorem closes_error (error : ParseError) :
    Closes inner tokens outer (.error error : Parse α n) := nofun

theorem Closes.of_eq {before : List Token} {parsed : Parse α n}
    (he : openBrackets inner before = openBrackets middle tokens)
    (h : Closes middle tokens outer parsed) : Closes inner before outer parsed :=
  fun r hr => he.trans (h r hr)

theorem Closes.bind {parsed : Parse α m} {next : Parsed α m → Parse β n}
    (h : Closes inner tokens middle parsed)
    (hn : ∀ value rest shorter, Closes middle rest outer (next ⟨value, rest, shorter⟩)) :
    Closes inner tokens outer (parsed >>= next) := by
  intro r hr
  obtain ⟨⟨value, rest, shorter⟩, hfirst, hr⟩ := bind_eq_ok.mp hr
  exact (h _ hfirst).trans (hn value rest shorter r hr)

end

variable {inner : List Bracket}

theorem identifier_closes (ho : Nested outer) : Closes outer tokens outer (identifier tokens) := by
  unfold identifier
  split
  · exact closes_ok (openBrackets_plain ho rfl _)
  · exact closes_error _

theorem name_closes (ho : Nested outer) : Closes outer tokens outer (name tokens) := by
  unfold name
  split
  · exact closes_ok (openBrackets_plain ho rfl _)
  · exact closes_ok (openBrackets_plain ho rfl _)
  · exact closes_error _

theorem string_closes (ho : Nested outer) : Closes outer tokens outer (string tokens) := by
  unfold string
  split
  · exact closes_ok (openBrackets_plain ho rfl _)
  · exact closes_error _

/-- A mark does to the brackets what it does in front of any tokens. -/
theorem mark_closes {wanted : Token}
    (h : ∀ rest, openBrackets inner (wanted :: rest) = openBrackets outer rest) :
    Closes inner tokens outer (mark wanted tokens) := by
  unfold mark
  split
  · exact closes_error _
  · rename_i token rest
    split
    · rename_i he
      exact closes_ok (he ▸ h rest)
    · exact closes_error _

theorem typeArguments_closes : Closes (.round :: outer) tokens outer (typeArguments tokens) := by
  fun_induction typeArguments tokens with
  | case1 n rest ih => exact ih.bind fun _ _ _ => closes_ok rfl
  | case2 => exact closes_ok rfl
  | case3 | case4 => exact closes_error _

theorem callArguments_closes : Closes (.round :: outer) tokens outer (callArguments tokens) := by
  fun_induction callArguments tokens with
  | case1 | case2 => exact closes_error _
  | case3 => exact closes_ok rfl
  | case4 token rest heof hparen ih =>
      exact .of_eq (openBrackets_inCall heof hparen rest) (ih.bind fun _ _ _ => closes_ok rfl)

theorem typeRef_closes (ho : Nested outer) : Closes outer tokens outer (typeRef tokens) := by
  unfold typeRef
  refine (identifier_closes ho).bind fun word rest₁ h₁ => ?_
  dsimp only
  split
  · refine (mark_closes (openBrackets_lParen ho)).bind fun _ rest₂ h₂ => ?_
    refine typeArguments_closes.bind fun args rest₃ h₃ => ?_
    exact closes_ok rfl
  · exact closes_ok rfl

theorem defaultValue_closes (ho : Nested outer) :
    Closes outer tokens outer (defaultValue tokens) := by
  unfold defaultValue
  split
  · refine .of_eq (openBrackets_plain ho rfl _) (.of_eq (openBrackets_lParen ho _) ?_)
    exact callArguments_closes.bind fun _ _ _ => closes_ok rfl
  · exact closes_ok (openBrackets_plain ho rfl _)
  · exact closes_ok (openBrackets_plain ho rfl _)
  · exact closes_ok (openBrackets_plain ho rfl _)
  · exact closes_ok (openBrackets_plain ho rfl _)
  · exact closes_error _

theorem hintPath_closes (ho : Nested outer) : Closes outer tokens outer (hintPath tokens) := by
  fun_induction hintPath tokens with
  | case1 word rest ih =>
      refine .of_eq (openBrackets_plain ho rfl _) (.of_eq (openBrackets_plain ho rfl _) ?_)
      exact ih.bind fun _ _ _ => closes_ok rfl
  | case2 => exact closes_error _
  | case3 => exact closes_ok rfl

theorem hintValue_closes (ho : Nested outer) : Closes outer tokens outer (hintValue tokens) := by
  unfold hintValue
  split
  · exact closes_ok (openBrackets_plain ho rfl _)
  · exact closes_ok (openBrackets_plain ho rfl _)
  · exact closes_ok (openBrackets_plain ho rfl _)
  · exact closes_error _

theorem hint_closes (ho : Nested outer) : Closes outer tokens outer (hint tokens) := by
  unfold hint
  refine (identifier_closes ho).bind fun word rest₁ h₁ => ?_
  refine (hintPath_closes ho).bind fun path rest₂ h₂ => ?_
  refine (mark_closes (openBrackets_plain ho rfl)).bind fun _ rest₃ h₃ => ?_
  refine (hintValue_closes ho).bind fun value rest₄ h₄ => ?_
  exact closes_ok rfl

theorem optionValue_closes (ho : Nested outer) (word : String) :
    Closes outer tokens outer (optionValue word tokens) := by
  unfold optionValue
  split
  case h_1 | h_2 => exact (identifier_closes ho).bind fun _ _ _ => closes_ok rfl
  case h_3 => exact (name_closes ho).bind fun _ _ _ => closes_ok rfl
  case h_4 | h_5 =>
    refine (name_closes ho).bind fun column rest₁ h₁ => ?_
    refine (mark_closes (openBrackets_plain ho rfl)).bind fun _ rest₂ h₂ => ?_
    exact (name_closes ho).bind fun _ _ _ => closes_ok rfl
  case h_6 => exact closes_error _

theorem referenceOption_closes (ho : Nested outer) :
    Closes outer tokens outer (referenceOption tokens) := by
  unfold referenceOption
  refine (identifier_closes ho).bind fun word rest₁ h₁ => ?_
  dsimp only
  split
  · refine (mark_closes (openBrackets_plain ho rfl)).bind fun _ rest₂ h₂ => ?_
    exact (optionValue_closes ho word).bind fun _ _ _ => closes_ok rfl
  · exact closes_ok rfl

theorem referenceOptions_closes :
    Closes (.square :: outer) tokens outer (referenceOptions tokens) := by
  fun_induction referenceOptions tokens with
  | case1 => exact closes_ok rfl
  | case2 tokens _ ih =>
      refine (referenceOption_closes nested_square).bind fun option rest₁ h₁ => ?_
      dsimp only
      split
      · refine (mark_closes (openBrackets_plain nested_square rfl)).bind
          fun _ rest₂ h₂ => ?_
        exact (ih rest₁ h₁ rest₂ h₂).bind fun _ _ _ => closes_ok rfl
      · exact (mark_closes fun _ => rfl).bind fun _ _ _ => closes_ok rfl

theorem reference_closes (ho : Nested outer) : Closes outer tokens outer (reference tokens) := by
  unfold reference
  refine (mark_closes (openBrackets_plain ho rfl)).bind fun _ rest₁ h₁ => ?_
  refine (name_closes ho).bind fun target rest₂ h₂ => ?_
  refine (mark_closes (openBrackets_plain ho rfl)).bind fun _ rest₃ h₃ => ?_
  refine (name_closes ho).bind fun column rest₄ h₄ => ?_
  dsimp only
  split
  · refine (mark_closes (openBrackets_lBracket ho)).bind fun _ rest₅ h₅ => ?_
    exact referenceOptions_closes.bind fun _ _ _ => closes_ok rfl
  · exact closes_ok rfl

theorem modifierAfter?_closes (ho : Nested outer) {word : String}
    {parsed : Parse Modifier (tokens.length + 1)} (h : modifierAfter? word tokens = some parsed) :
    Closes outer tokens outer parsed := by
  unfold modifierAfter? at h
  split at h
  case h_12 => cases h
  all_goals obtain rfl := Option.some.inj h
  case h_1 | h_3 | h_4 | h_5 | h_6 => exact closes_ok rfl
  case h_2 =>
    split
    · exact closes_ok (openBrackets_plain ho rfl _)
    · exact closes_error _
  case h_7 => exact (defaultValue_closes ho).bind fun _ _ _ => closes_ok rfl
  case h_8 | h_9 | h_10 => exact (string_closes ho).bind fun _ _ _ => closes_ok rfl
  case h_11 => exact (reference_closes ho).bind fun _ _ _ => closes_ok rfl

theorem modifiers_closes (ho : Nested outer) : Closes outer tokens outer (modifiers tokens) := by
  fun_induction modifiers tokens with
  | case1 | case3 => exact closes_ok rfl
  | case2 word rest parsed hparsed ih =>
      refine .of_eq (openBrackets_plain ho rfl _) ?_
      refine (modifierAfter?_closes ho hparsed).bind fun modifier rest' h => ?_
      exact (ih rest' h).bind fun _ _ _ => closes_ok rfl

theorem property_closes (ho : Nested outer) : Closes outer tokens outer (property tokens) := by
  unfold property
  refine (name_closes ho).bind fun word rest₁ h₁ => ?_
  refine (typeRef_closes ho).bind fun type rest₂ h₂ => ?_
  exact (modifiers_closes ho).bind fun _ _ _ => closes_ok rfl

theorem body_closes {entity : String} {seen : List String} :
    Closes (.curly :: outer) tokens outer (body entity seen tokens) := by
  fun_induction body entity seen tokens with
  | case1 => exact closes_ok rfl
  | case2 seen rest ih =>
      refine .of_eq (openBrackets_plain nested_curly rfl rest) ?_
      refine (hint_closes nested_curly).bind fun first rest' h => ?_
      exact (ih rest' h).bind fun _ _ _ => closes_ok rfl
  | case3 seen tokens _ _ ih =>
      refine (property_closes nested_curly).bind fun first rest h => ?_
      dsimp only
      split
      · exact closes_error _
      · exact (ih first rest h).bind fun _ _ _ => closes_ok rfl

theorem entity_closes (ho : Nested outer) : Closes outer tokens outer (entity tokens) := by
  unfold entity
  refine (name_closes ho).bind fun word rest₁ h₁ => ?_
  refine (mark_closes (openBrackets_lBrace ho)).bind fun _ rest₂ h₂ => ?_
  exact body_closes.bind fun _ _ _ => closes_ok rfl

/-- **A document has no bracket that stays open.** -/
theorem entities_closed {seen : List String} {es : List Entity} (h : entities seen tokens = .ok es) :
    openBrackets [] tokens = [] := by
  fun_induction entities seen tokens generalizing es with
  | case1 | case2 => rfl
  | case3 seen rest ih =>
      obtain ⟨⟨first, rest', hlt⟩, hfirst, h⟩ := bind_eq_ok.mp h
      dsimp only at h
      split at h
      · obtain ⟨_, hthrow, -⟩ := bind_eq_ok.mp h
        exact absurd hthrow throw_ne_ok
      · obtain ⟨more, hmore, -⟩ := bind_eq_ok.mp h
        calc openBrackets [] (.ident "entity" :: rest)
          _ = openBrackets [] rest := rfl
          _ = openBrackets [] rest' := entity_closes nested_nil _ hfirst
          _ = [] := ih first rest' hlt hmore
  | case4 => cases h

end ErModel.Source
