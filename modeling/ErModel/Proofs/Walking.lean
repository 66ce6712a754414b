import ErModel.Proofs.Printable
import ErModel.Proofs.Walk

/-!
# Walks and parsers

Where the end mark is ahead, every walk does what the parser of the same name does: it comes to the
same value in front of the tokens that the parser leaves, or to the same error, and the end mark is
still ahead. So no walk looks behind the last token. What a parser leaves is shorter than what it was
given, and this is why no loop of a walk is stuck.
-/

namespace ErModel.Source

/-- These tokens are ahead of the position, the end mark among them. -/
structure Ahead (tokens : List Token) (position : Nat) (rest : List Token) : Prop where
  drop : tokens.drop position = rest
  ends : .eof ∈ rest

namespace Ahead

variable {tokens rest more : List Token} {position later : Nat} {token : Token}

theorem cases (h : Ahead tokens position rest) : ∃ token more, rest = token :: more := by
  cases rest with
  | nil => cases h.ends
  | cons token more => exact ⟨token, more, rfl⟩

theorem get (h : Ahead tokens position (token :: more)) : tokens[position]? = some token := by
  rw [← List.head?_drop, h.drop, List.head?_cons]

theorem lt (h : Ahead tokens position rest) : position < tokens.length := by
  obtain ⟨token, more, rfl⟩ := h.cases
  exact (List.getElem?_eq_some_iff.mp h.get).1

theorem length_eq (h : Ahead tokens position rest) : rest.length = tokens.length - position := by
  rw [← h.drop, List.length_drop]

/-- Behind a token other than the end mark, the end mark is still ahead. -/
theorem tail (h : Ahead tokens position (token :: more)) (hne : token ≠ .eof) :
    Ahead tokens (position + 1) more where
  drop := by rw [← List.tail_drop, h.drop, List.tail_cons]
  ends := (List.mem_cons.mp h.ends).resolve_left hne.symm

/-- If fewer tokens are ahead, the walk has gone over some. -/
theorem progress (h : Ahead tokens position rest) (hl : Ahead tokens later more)
    (hlt : more.length < rest.length) : position < later ∧ later ≤ tokens.length := by
  have := hl.lt
  rw [h.length_eq, hl.length_eq] at hlt
  omega

end Ahead

namespace Walk

variable {α β γ σ : Type} {m n : Nat} {tokens rest more : List Token} {position later : Nat}
  {token : Token}

/-! ## Steps -/

theorem run_pure (a : α) : (pure a : Walk α).run tokens position = (.ok a, position) := rfl

theorem run_bind (walk : Walk α) (next : α → Walk β) : (walk >>= next).run tokens position =
    match walk.run tokens position with
    | (.ok a, later) => (next a).run tokens later
    | (.error stop, later) => (.error stop, later) := rfl

theorem id_map (walk : Walk α) : id <$> walk = walk := by
  refine congrArg Walk.mk (funext fun tokens => funext fun position => ?_)
  show (walk >>= pure).run tokens position = _
  rw [run_bind]
  cases hw : walk.run tokens position with
  | mk outcome later => cases outcome <;> rfl

theorem assoc (walk : Walk α) (next : α → Walk β) (last : β → Walk γ) :
    walk >>= next >>= last = walk >>= fun a => next a >>= last := by
  refine congrArg Walk.mk (funext fun tokens => funext fun position => ?_)
  rw [run_bind]
  cases hw : walk.run tokens position with
  | mk outcome later => cases outcome <;> rfl

instance : LawfulMonad Walk := LawfulMonad.mk' Walk id_map (fun _ _ => rfl) assoc

theorem run_peek (h : Ahead tokens position (token :: more)) :
    peek.run tokens position = (.ok token, position) := by
  simp only [peek, h.get]

theorem run_advance (h : Ahead tokens position (token :: more)) :
    advance.run tokens position = (.ok token, position + 1) := by
  simp only [advance, h.get]

theorem run_peek_bind (h : Ahead tokens position (token :: more)) (next : Token → Walk α) :
    (peek >>= next).run tokens position = (next token).run tokens position := by
  rw [run_bind, run_peek h]

theorem run_advance_bind (h : Ahead tokens position (token :: more)) (next : Token → Walk α) :
    (advance >>= next).run tokens position = (next token).run tokens (position + 1) := by
  rw [run_bind, run_advance h]

theorem run_mark_bind (h : Ahead tokens position (token :: more)) (next : Unit → Walk α) :
    (mark token >>= next).run tokens position = (next ()).run tokens (position + 1) := by
  rw [mark, bind_assoc, run_advance_bind h, if_pos rfl, pure_bind]

/-- What comes behind a round that started at this position. -/
def follow (round : σ → Walk (Round σ α)) (start : Nat) : Round σ α → Walk α
  | .leave result => pure result
  | .again state => ⟨fun tokens position =>
    if start < position ∧ position ≤ tokens.length then (loop round state).run tokens position
    else (.error .stuck, position)⟩

theorem follow_leave (round : σ → Walk (Round σ α)) (start : Nat) (result : α) :
    follow round start (.leave result) = pure result := rfl

theorem run_loop (round : σ → Walk (Round σ α)) (state : σ) :
    (loop round state).run tokens position =
      (round state >>= follow round position).run tokens position := by
  show rounds round state tokens position = _
  rw [rounds, run_bind]
  split
  · rename_i heq
    rw [heq]
    rfl
  · rename_i heq
    rw [heq]
    rfl
  · rename_i heq
    rw [heq]

theorem run_loop_bind (round : σ → Walk (Round σ α)) (state : σ) (next : α → Walk β) :
    (loop round state >>= next).run tokens position =
      (round state >>= fun r => follow round position r >>= next).run tokens position := by
  rw [← bind_assoc, run_bind, run_bind, run_loop]

/-- A round that has gone over a token may be followed by another one. -/
theorem run_again {start : Nat} (hlt : start < position ∧ position ≤ tokens.length)
    (round : σ → Walk (Round σ α)) (state : σ) :
    (follow round start (.again state)).run tokens position =
      (loop round state).run tokens position :=
  if_pos hlt

theorem run_again_bind {start : Nat} (hlt : start < position ∧ position ≤ tokens.length)
    (round : σ → Walk (Round σ α)) (state : σ) (next : α → Walk β) :
    (follow round start (.again state) >>= next).run tokens position =
      (loop round state >>= next).run tokens position := by
  rw [run_bind, run_bind, run_again hlt]

/-! ## Agreement -/

/-- The walk has come to what a parser gives: to the value, as `f` turns it, in front of the tokens that
the parser leaves, or to the same error within the list. -/
def Agrees {bound : Nat} (tokens : List Token) (f : α → β) (outcome : Except Stop β × Nat)
    (parsed : Parse α bound) : Prop :=
  match parsed with
  | .ok r => ∃ later, outcome = (.ok (f r.value), later) ∧ Ahead tokens later r.rest
  | .error error => ∃ later, outcome = (.error (.refused error), later) ∧ later ≤ tokens.length

section

variable {δ : Type} {f : α → γ} {g : β → δ}

theorem agrees_ok {value : α} {result : γ} {shorter : rest.length < n} (he : result = f value)
    (h : Ahead tokens later rest) :
    Agrees tokens f (.ok result, later) (.ok ⟨value, rest, shorter⟩ : Parse α n) :=
  ⟨later, by rw [he], h⟩

theorem agrees_error {error : ParseError} (h : later ≤ tokens.length) :
    Agrees tokens f (.error (.refused error), later) (.error error : Parse α n) :=
  ⟨later, rfl, h⟩

/-- Walk and parser go on in agreement. -/
theorem Agrees.bind {walk : Walk γ} {next : γ → Walk δ} {parsed : Parse α m}
    {behind : Parsed α m → Parse β n} (h : Agrees tokens f (walk.run tokens position) parsed)
    (hn : ∀ value rest shorter later, Ahead tokens later rest →
      Agrees tokens g ((next (f value)).run tokens later) (behind ⟨value, rest, shorter⟩)) :
    Agrees tokens g ((walk >>= next).run tokens position) (parsed >>= behind) := by
  rw [run_bind]
  match parsed, h with
  | .ok ⟨value, rest, shorter⟩, ⟨later, houtcome, hahead⟩ =>
    rw [houtcome]
    exact hn value rest shorter later hahead
  | .error error, ⟨later, houtcome, hle⟩ =>
    rw [houtcome]
    exact agrees_error hle

/-- The parser goes on and takes nothing more, and the walk is already there. -/
theorem Agrees.turn {outcome : Except Stop δ × Nat} {f : α → δ} {parsed : Parse α m}
    {behind : Parsed α m → Parse β n} (h : Agrees tokens f outcome parsed)
    (hn : ∀ value rest shorter, ∃ value' shorter',
      behind ⟨value, rest, shorter⟩ = .ok ⟨value', rest, shorter'⟩ ∧ g value' = f value) :
    Agrees tokens g outcome (parsed >>= behind) := by
  match parsed, h with
  | .ok ⟨value, rest, shorter⟩, ⟨later, houtcome, hahead⟩ =>
    obtain ⟨value', shorter', hbehind, hvalue⟩ := hn value rest shorter
    show Agrees tokens g outcome (behind ⟨value, rest, shorter⟩)
    rw [hbehind, houtcome]
    exact agrees_ok hvalue.symm hahead
  | .error error, ⟨later, houtcome, hle⟩ => exact ⟨later, houtcome, hle⟩

end

/-- Walk and parser look at the next token, and go on in agreement if it is a mark and if it is not. The
walk then goes over the mark. -/
theorem agrees_peek (wanted : Token) (hw : wanted ≠ .eof) {f : α → γ} {walk other : Walk γ}
    {parsed otherwise : Parse α n} (h : Ahead tokens position rest)
    (hthen : ∀ more, rest = wanted :: more → Ahead tokens (position + 1) more →
      Agrees tokens f (walk.run tokens (position + 1)) parsed)
    (helse : Agrees tokens f (other.run tokens position) otherwise) :
    Agrees tokens f
      ((peek >>= fun token => if token = wanted then advance >>= fun _ => walk else other).run
        tokens position)
      (if Source.peek rest = wanted then parsed else otherwise) := by
  obtain ⟨token, more, rfl⟩ := h.cases
  rw [run_peek_bind h]
  by_cases ht : token = wanted
  · subst ht
    rw [if_pos rfl, if_pos (show Source.peek (token :: more) = token from rfl), run_advance_bind h]
    exact hthen more rfl (h.tail hw)
  · rw [if_neg ht, if_neg (show Source.peek (token :: more) ≠ wanted from ht)]
    exact helse

/-! ## Words and marks -/

theorem identifier_agrees (h : Ahead tokens position rest) :
    Agrees tokens id (identifier.run tokens position) (Source.identifier rest) := by
  obtain ⟨token, more, rfl⟩ := h.cases
  rw [identifier, run_advance_bind h]
  cases token with
  | ident word => exact agrees_ok rfl (h.tail (by simp))
  | _ => exact agrees_error h.lt

theorem name_agrees (h : Ahead tokens position rest) :
    Agrees tokens id (name.run tokens position) (Source.name rest) := by
  obtain ⟨token, more, rfl⟩ := h.cases
  rw [name, run_advance_bind h]
  cases token with
  | ident word => exact agrees_ok rfl (h.tail (by simp))
  | str text => exact agrees_ok rfl (h.tail (by simp))
  | _ => exact agrees_error h.lt

theorem string_agrees (h : Ahead tokens position rest) :
    Agrees tokens id (string.run tokens position) (Source.string rest) := by
  obtain ⟨token, more, rfl⟩ := h.cases
  rw [string, run_advance_bind h]
  cases token with
  | str text => exact agrees_ok rfl (h.tail (by simp))
  | _ => exact agrees_error h.lt

theorem mark_agrees (wanted : Token) (hw : wanted ≠ .eof) (h : Ahead tokens position rest) :
    Agrees tokens id ((mark wanted).run tokens position) (Source.mark wanted rest) := by
  obtain ⟨token, more, rfl⟩ := h.cases
  rw [mark, run_advance_bind h, Source.mark]
  split
  · rename_i he
    exact agrees_ok rfl (h.tail (he ▸ hw))
  · exact agrees_error h.lt

/-! ## Types and values -/

theorem typeArguments_agrees {args : List Int} (h : Ahead tokens position rest) :
    Agrees tokens (args ++ ·) ((loop typeArgument args).run tokens position)
      (typeArguments rest) := by
  fun_induction typeArguments rest generalizing args position with
  | case1 n more ih =>
      have h₁ := h.tail (by simp)
      have h₂ := h₁.tail (by simp)
      rw [run_loop, typeArgument, bind_assoc, run_advance_bind h, bind_assoc, run_advance_bind h₁,
        pure_bind, run_again (h.progress h₂ (by simp only [List.length_cons]; omega))]
      exact (ih h₂).turn fun found _ _ => ⟨_, _, rfl, by simp⟩
  | case2 n more =>
      have h₁ := h.tail (by simp)
      rw [run_loop, typeArgument, bind_assoc, run_advance_bind h, bind_assoc, run_advance_bind h₁,
        pure_bind]
      exact agrees_ok rfl (h₁.tail (by simp))
  | case3 n more hcomma hparen =>
      have h₁ := h.tail (by simp)
      rw [run_loop, typeArgument, bind_assoc, run_advance_bind h, bind_assoc]
      obtain ⟨token, behind, rfl⟩ := h₁.cases
      rw [run_advance_bind h₁]
      cases token with
      | comma => exact absurd rfl (hcomma _)
      | rParen => exact absurd rfl (hparen _)
      | _ => exact agrees_error h₁.lt
  | case4 rest _ _ hnum =>
      obtain ⟨token, behind, rfl⟩ := h.cases
      rw [run_loop, typeArgument, bind_assoc, run_advance_bind h]
      cases token with
      | num n => exact absurd rfl (hnum _ _)
      | _ => exact agrees_error h.lt

theorem typeRef_agrees (h : Ahead tokens position rest) :
    Agrees tokens id (typeRef.run tokens position) (Source.typeRef rest) := by
  rw [typeRef, Source.typeRef]
  refine (identifier_agrees h).bind fun word rest₁ _ _ h₁ => ?_
  refine agrees_peek .lParen (by simp) h₁ (fun more hmore h₂ => ?_) (agrees_ok rfl h₁)
  subst hmore
  refine (typeArguments_agrees h₂).bind fun args rest₃ _ _ h₃ => ?_
  exact agrees_ok rfl h₃

theorem run_callArgument (h : Ahead tokens position (token :: more)) (heof : token ≠ .eof)
    (hparen : token ≠ .rParen) {text : String} : (callArgument text).run tokens position =
      (.ok (.again (text ++ token.inCall)), position + 1) := by
  rw [callArgument, run_peek_bind h]
  cases token with
  | eof => exact absurd rfl heof
  | rParen => exact absurd rfl hparen
  | _ => rw [run_advance_bind h, run_pure]

theorem callArguments_agrees {text : String} (h : Ahead tokens position rest) :
    Agrees tokens (text ++ ·) ((loop callArgument text).run tokens position)
      (callArguments rest) := by
  fun_induction callArguments rest generalizing text position with
  | case1 => cases h.ends
  | case2 more =>
      rw [run_loop, callArgument, bind_assoc, run_peek_bind h]
      exact agrees_error (Nat.le_of_lt h.lt)
  | case3 more =>
      rw [run_loop, callArgument, bind_assoc, run_peek_bind h, bind_assoc, run_advance_bind h,
        pure_bind]
      exact agrees_ok String.append_empty.symm (h.tail (by simp))
  | case4 token more heof hparen ih =>
      have h₁ := h.tail heof
      have hlt := h.progress h₁ (Nat.lt_succ_self more.length)
      rw [run_loop, run_bind, run_callArgument h heof hparen]
      dsimp only
      rw [run_again hlt]
      exact (ih h₁).turn fun found _ _ => ⟨_, _, rfl, (String.append_assoc ..).symm⟩

theorem defaultValue_agrees (h : Ahead tokens position rest) :
    Agrees tokens id (defaultValue.run tokens position) (Source.defaultValue rest) := by
  obtain ⟨token, more, rfl⟩ := h.cases
  rw [defaultValue, run_advance_bind h]
  cases token with
  | ident word =>
      have h₁ := h.tail (by simp)
      obtain ⟨token, behind, rfl⟩ := h₁.cases
      rw [run_peek_bind h₁]
      by_cases ht : token = .lParen
      · subst ht
        rw [if_pos rfl, run_advance_bind h₁, Source.defaultValue]
        refine (callArguments_agrees (h₁.tail (by simp))).bind fun args rest₂ _ _ h₂ => ?_
        exact agrees_ok (by simp) h₂
      · rw [if_neg ht, Source.defaultValue]
        · exact agrees_ok rfl h₁
        · rintro more hmore
          exact ht (List.cons.inj hmore).1
  | str text => exact agrees_ok rfl (h.tail (by simp))
  | num n => exact agrees_ok rfl (h.tail (by simp))
  | decimal x => exact agrees_ok rfl (h.tail (by simp))
  | _ => exact agrees_error h.lt

/-! ## Hints -/

theorem hintPath_agrees {key : String} (h : Ahead tokens position rest) :
    Agrees tokens (key ++ ·) ((loop hintPart key).run tokens position) (hintPath rest) := by
  fun_induction hintPath rest generalizing key position with
  | case1 word more ih =>
      have h₁ := h.tail (by simp)
      have h₂ := h₁.tail (by simp)
      rw [run_loop, hintPart, bind_assoc, run_peek_bind h, if_pos rfl, bind_assoc,
        run_advance_bind h, identifier, bind_assoc, bind_assoc, run_advance_bind h₁, pure_bind]
      rw [pure_bind, run_again (h.progress h₂ (by simp only [List.length_cons]; omega))]
      exact (ih h₂).turn fun found _ _ => ⟨_, _, rfl, by simp only [String.append_assoc]⟩
  | case2 more hword =>
      have h₁ := h.tail (by simp)
      obtain ⟨token, behind, rfl⟩ := h₁.cases
      rw [run_loop, hintPart, bind_assoc, run_peek_bind h, if_pos rfl, bind_assoc,
        run_advance_bind h, identifier, bind_assoc, bind_assoc, run_advance_bind h₁]
      cases token with
      | ident word => exact absurd rfl (hword _ _)
      | _ => exact agrees_error h₁.lt
  | case3 rest _ hdot =>
      obtain ⟨token, more, rfl⟩ := h.cases
      rw [run_loop, hintPart, bind_assoc, run_peek_bind h, if_neg fun ht => hdot more (by rw [ht])]
      exact agrees_ok String.append_empty.symm h

theorem hintValue_agrees (h : Ahead tokens position rest) :
    Agrees tokens id (hintValue.run tokens position) (Source.hintValue rest) := by
  obtain ⟨token, more, rfl⟩ := h.cases
  rw [hintValue, run_advance_bind h]
  cases token with
  | num n => exact agrees_ok rfl (h.tail (by simp))
  | str text => exact agrees_ok rfl (h.tail (by simp))
  | ident word => exact agrees_ok rfl (h.tail (by simp))
  | _ => exact agrees_error h.lt

/-- The mark in front of a hint is taken by the walk of the hint, but not by its parser. -/
theorem hint_agrees (h : Ahead tokens position (.at :: rest)) :
    Agrees tokens id (hint.run tokens position) (Source.hint rest) := by
  rw [hint, run_mark_bind h, Source.hint]
  refine (identifier_agrees (h.tail (by simp))).bind fun word rest₁ _ _ h₁ => ?_
  refine (hintPath_agrees h₁).bind fun path rest₂ _ _ h₂ => ?_
  refine (mark_agrees .eq (by simp) h₂).bind fun _ rest₃ _ _ h₃ => ?_
  refine (hintValue_agrees h₃).bind fun value rest₄ _ _ h₄ => ?_
  exact agrees_ok rfl h₄

/-! ## Foreign keys -/

theorem optionValue_agrees (h : Ahead tokens position rest) (word : String) :
    Agrees tokens id ((optionValue word).run tokens position) (Source.optionValue word rest) := by
  unfold optionValue
  split
  case h_1 | h_2 =>
    rw [Source.optionValue]
    refine (identifier_agrees h).bind fun action rest₁ _ _ h₁ => ?_
    exact agrees_ok rfl h₁
  case h_3 =>
    rw [Source.optionValue]
    refine (name_agrees h).bind fun table rest₁ _ _ h₁ => ?_
    exact agrees_ok rfl h₁
  case h_4 | h_5 =>
    rw [Source.optionValue]
    refine (name_agrees h).bind fun column rest₁ _ _ h₁ => ?_
    refine (mark_agrees .arrow (by simp) h₁).bind fun _ rest₂ _ _ h₂ => ?_
    refine (name_agrees h₂).bind fun referenced rest₃ _ _ h₃ => ?_
    exact agrees_ok rfl h₃
  case h_6 =>
    rw [Source.optionValue]
    · exact agrees_error (Nat.le_of_lt h.lt)
    all_goals assumption

theorem referenceOption_agrees (h : Ahead tokens position rest) :
    Agrees tokens id (referenceOption.run tokens position) (Source.referenceOption rest) := by
  rw [referenceOption, Source.referenceOption]
  refine (identifier_agrees h).bind fun word rest₁ _ _ h₁ => ?_
  refine agrees_peek .eq (by simp) h₁ (fun more hmore h₂ => ?_) (agrees_ok rfl h₁)
  subst hmore
  exact (optionValue_agrees h₂ word).turn fun _ _ _ => ⟨_, _, rfl, rfl⟩

/-- The loop of the options, and the bracket behind it, before something is made of them. -/
theorem referenceOptions_agrees (make : List ReferenceOption → γ) {options : List ReferenceOption}
    (h : Ahead tokens position rest) :
    Agrees tokens (fun found => make (options ++ found))
      ((loop optionPart options >>= fun found => mark .rBracket >>= fun _ =>
        pure (make found)).run tokens position) (referenceOptions rest) := by
  fun_induction referenceOptions rest generalizing options position with
  | case1 more =>
      have h₁ := h.tail (by simp)
      rw [run_loop_bind, optionPart, bind_assoc, run_peek_bind h, if_pos rfl, pure_bind, follow_leave,
        pure_bind, run_mark_bind h]
      exact agrees_ok (congrArg make (List.append_nil options).symm) h₁
  | case2 rest hclose ih =>
      obtain ⟨token, more, rfl⟩ := h.cases
      rw [run_loop_bind, optionPart, bind_assoc, run_peek_bind h,
        if_neg fun ht => hclose more (by rw [ht]), bind_assoc]
      refine (referenceOption_agrees h).bind fun option rest₁ hlt _ h₁ => ?_
      obtain ⟨token₁, more₁, rfl⟩ := h₁.cases
      rw [bind_assoc, run_peek_bind h₁]
      by_cases ht : token₁ = .comma
      · subst ht
        have h₂ := h₁.tail (by simp)
        have hless : more₁.length < (token :: more).length := Nat.lt_of_succ_lt hlt
        rw [if_pos rfl, bind_assoc, run_advance_bind h₁, pure_bind, run_again_bind (h.progress h₂ hless)]
        refine (ih _ hlt more₁ (Nat.lt_succ_self _) h₂).turn fun found _ _ => ⟨_, _, rfl, ?_⟩
        exact congrArg make (List.append_assoc options [option] found).symm
      · rw [if_neg ht, pure_bind, follow_leave, pure_bind]
        dsimp only
        rw [if_neg (show Source.peek (token₁ :: more₁) ≠ .comma from ht)]
        refine (mark_agrees .rBracket (by simp) h₁).bind fun _ rest₂ _ _ h₂ => ?_
        exact agrees_ok rfl h₂

theorem reference_agrees (h : Ahead tokens position rest) :
    Agrees tokens id (reference.run tokens position) (Source.reference rest) := by
  rw [reference, Source.reference]
  refine (mark_agrees .arrow (by simp) h).bind fun _ rest₁ _ _ h₁ => ?_
  refine (name_agrees h₁).bind fun target rest₂ _ _ h₂ => ?_
  refine (mark_agrees .dot (by simp) h₂).bind fun _ rest₃ _ _ h₃ => ?_
  refine (name_agrees h₃).bind fun column rest₄ _ _ h₄ => ?_
  refine agrees_peek .lBracket (by simp) h₄ (fun more hmore h₅ => ?_) (agrees_ok rfl h₄)
  subst hmore
  refine (referenceOptions_agrees (Reference.mk target column) h₅).turn ?_
  exact fun _ _ _ => ⟨_, _, rfl, rfl⟩

/-! ## Properties -/

theorem modifierAfter?_agrees (h : Ahead tokens position rest) (word : String) :
    Option.Rel (fun walk parsed => Agrees tokens id (walk.run tokens position) parsed)
      (modifierAfter? word) (Source.modifierAfter? word rest) := by
  unfold modifierAfter?
  split
  case h_1 | h_3 | h_4 | h_5 | h_6 => exact .some (agrees_ok rfl h)
  case h_2 =>
    obtain ⟨token, more, rfl⟩ := h.cases
    by_cases ht : token = .ident "null"
    · subst ht
      refine .some ?_
      rw [run_peek_bind h, if_pos rfl, run_advance_bind h]
      exact agrees_ok rfl (h.tail (by simp))
    · rw [Source.modifierAfter?]
      · refine .some ?_
        rw [run_peek_bind h, if_neg ht]
        exact agrees_error (Nat.le_of_lt h.lt)
      · exact fun behind he => ht (List.cons.inj he).1
  case h_7 => exact .some ((defaultValue_agrees h).bind fun _ _ _ _ h₁ => agrees_ok rfl h₁)
  case h_8 | h_9 | h_10 =>
    exact .some ((string_agrees h).bind fun _ _ _ _ h₁ => agrees_ok rfl h₁)
  case h_11 => exact .some ((reference_agrees h).bind fun _ _ _ _ h₁ => agrees_ok rfl h₁)
  case h_12 =>
    rw [Source.modifierAfter?]
    · exact .none
    all_goals assumption

theorem modifiers_agrees {found : List Modifier} (h : Ahead tokens position rest) :
    Agrees tokens (found ++ ·) ((loop modifier found).run tokens position) (modifiers rest) := by
  fun_induction modifiers rest generalizing found position with
  | case1 word more hnone =>
      have hrel := modifierAfter?_agrees (h.tail (by simp)) word
      cases hwalk : modifierAfter? word with
      | some walk =>
          rw [hnone, hwalk] at hrel
          cases hrel
      | none =>
          rw [run_loop, modifier, bind_assoc, run_peek_bind h]
          dsimp only
          rw [hwalk]
          exact agrees_ok (List.append_nil found).symm h
  | case2 word more parsed hsome ih =>
      have hrel := modifierAfter?_agrees (h.tail (by simp)) word
      cases hwalk : modifierAfter? word with
      | none =>
          rw [hsome, hwalk] at hrel
          cases hrel
      | some walk =>
          rw [hsome, hwalk] at hrel
          cases hrel with
          | some hagrees =>
              rw [run_loop, modifier, bind_assoc, run_peek_bind h]
              dsimp only
              rw [hwalk]
              dsimp only
              rw [bind_assoc, run_advance_bind h, bind_assoc]
              refine hagrees.bind fun first rest' hlt later h₁ => ?_
              rw [pure_bind, run_again (h.progress h₁ hlt)]
              exact (ih rest' hlt h₁).turn fun list _ _ =>
                ⟨_, _, rfl, (List.append_assoc found [first] list).symm⟩
  | case3 rest hword =>
      obtain ⟨token, more, rfl⟩ := h.cases
      rw [run_loop, modifier, bind_assoc, run_peek_bind h]
      cases token with
      | ident word => exact absurd rfl (hword _ _)
      | _ => exact agrees_ok (List.append_nil found).symm h

theorem property_agrees (h : Ahead tokens position rest) :
    Agrees tokens id (property.run tokens position) (Source.property rest) := by
  rw [property, Source.property]
  refine (name_agrees h).bind fun word rest₁ _ _ h₁ => ?_
  refine (typeRef_agrees h₁).bind fun type rest₂ _ _ h₂ => ?_
  refine (modifiers_agrees h₂).bind fun list rest₃ _ _ h₃ => ?_
  exact agrees_ok rfl h₃

/-! ## Entities -/

/-- The loop over the parts of an entity, and the brace behind it, before something is made of them. -/
theorem body_agrees (make : List Hint × List Property → γ) {name : String} {found : Found}
    (h : Ahead tokens position rest) :
    Agrees tokens (fun parts => make (found.hints ++ parts.1, found.properties ++ parts.2))
      ((loop (bodyPart name) found >>= fun parts => mark .rBrace >>= fun _ =>
        pure (make parts)).run tokens position) (body name found.names rest) := by
  generalize hnames : found.names = names
  fun_induction body name names rest generalizing found position with
  | case1 names more =>
      rw [run_loop_bind, bodyPart, bind_assoc, run_peek_bind h, if_pos rfl, pure_bind, follow_leave,
        pure_bind, run_mark_bind h]
      exact agrees_ok (by simp) (h.tail (by simp))
  | case2 names more ih =>
      have hne : Token.at ≠ .rBrace := by simp
      rw [run_loop_bind, bodyPart, bind_assoc, run_peek_bind h, if_neg hne, if_pos rfl, bind_assoc]
      refine (hint_agrees h).bind fun first rest' hlt later h₁ => ?_
      rw [pure_bind, run_again_bind (h.progress h₁ (Nat.lt_succ_of_lt hlt))]
      have hnames' : ({ found with hints := found.hints ++ [first] } : Found).names = names := hnames
      refine (ih rest' hlt h₁ hnames').turn fun parts _ _ => ?_
      exact ⟨_, _, rfl, by simp⟩
  | case3 names rest hclose hat ih =>
      obtain ⟨token, more, rfl⟩ := h.cases
      rw [run_loop_bind, bodyPart, bind_assoc, run_peek_bind h,
        if_neg fun ht => hclose more (by rw [ht]), if_neg fun ht => hat more (by rw [ht]), bind_assoc]
      refine (property_agrees h).bind fun first rest' hlt later h₁ => ?_
      dsimp only [id]
      by_cases hmem : first.name ∈ names
      · rw [if_pos (hnames ▸ hmem), if_pos hmem]
        exact agrees_error (Nat.le_of_lt h₁.lt)
      · rw [if_neg (hnames ▸ hmem), if_neg hmem, pure_bind, run_again_bind (h.progress h₁ hlt)]
        refine (ih first rest' hlt h₁ (congrArg (first.name :: ·) hnames)).turn fun parts _ _ => ?_
        exact ⟨_, _, rfl, by simp⟩

theorem entity_agrees (h : Ahead tokens position rest) :
    Agrees tokens id (entity.run tokens position) (Source.entity rest) := by
  rw [entity, Source.entity]
  refine (name_agrees h).bind fun word rest₁ _ _ h₁ => ?_
  refine (mark_agrees .lBrace (by simp) h₁).bind fun _ rest₂ _ _ h₂ => ?_
  refine (body_agrees (fun parts => Entity.mk word parts.1 parts.2) h₂).turn ?_
  exact fun _ _ _ => ⟨_, _, rfl, rfl⟩

/-- The walk has come to this result, as `f` turns it, or to the same error, within the list. -/
def Reaches (tokens : List Token) (f : α → β) (outcome : Except Stop β × Nat)
    (result : Except ParseError α) : Prop :=
  ∃ later ≤ tokens.length, outcome = ((f <$> result).mapError .refused, later)

theorem Agrees.reach {δ : Type} {f : α → γ} {g : β → δ} {walk : Walk γ} {next : γ → Walk δ}
    {parsed : Parse α m} {behind : Parsed α m → Except ParseError β}
    (h : Agrees tokens f (walk.run tokens position) parsed)
    (hn : ∀ value rest shorter later, Ahead tokens later rest →
      Reaches tokens g ((next (f value)).run tokens later) (behind ⟨value, rest, shorter⟩)) :
    Reaches tokens g ((walk >>= next).run tokens position) (parsed >>= behind) := by
  rw [run_bind]
  match parsed, h with
  | .ok ⟨value, rest, shorter⟩, ⟨later, houtcome, hahead⟩ =>
    rw [houtcome]
    exact hn value rest shorter later hahead
  | .error error, ⟨later, houtcome, hle⟩ =>
    rw [houtcome]
    exact ⟨later, hle, rfl⟩

theorem entities_reached {seen : List String} {found : List Entity}
    (h : Ahead tokens position rest) (hs : ∀ name, name ∈ seen ↔ name ∈ found.map (·.name)) :
    Reaches tokens (found ++ ·) ((loop entityPart found).run tokens position)
      (entities seen rest) := by
  fun_induction entities seen rest generalizing found position with
  | case1 => cases h.ends
  | case2 seen more =>
      rw [run_loop, entityPart, bind_assoc, run_peek_bind h, if_pos rfl, pure_bind, follow_leave]
      refine ⟨position, Nat.le_of_lt h.lt, ?_⟩
      show (Except.ok found, position) = (Except.ok (found ++ []), position)
      rw [List.append_nil]
  | case3 seen more ih =>
      have hne : Token.ident "entity" ≠ .eof := by simp
      rw [run_loop, entityPart, bind_assoc, run_peek_bind h, if_neg hne, if_pos rfl, bind_assoc,
        run_advance_bind h, bind_assoc]
      refine (entity_agrees (h.tail (by simp))).reach fun first rest' hlt later h₁ => ?_
      dsimp only [id]
      by_cases hmem : first.name ∈ seen
      · rw [if_pos ((hs _).mp hmem), if_pos hmem]
        exact ⟨later, Nat.le_of_lt h₁.lt, rfl⟩
      · have hfound : ∀ name, name ∈ first.name :: seen ↔
            name ∈ (found ++ [first]).map (·.name) := by
          intro name
          simp [← hs, or_comm]
        rw [if_neg (mt (hs _).mpr hmem), if_neg hmem, pure_bind,
          run_again (h.progress h₁ (Nat.lt_succ_of_lt hlt))]
        obtain ⟨last, hle, hlast⟩ := ih first rest' hlt h₁ hfound
        refine ⟨last, hle, hlast.trans ?_⟩
        cases entities (first.name :: seen) rest' with
        | error error => rfl
        | ok es =>
            show (Except.ok (found ++ [first] ++ es), last) =
              (Except.ok (found ++ first :: es), last)
            rw [List.append_assoc, List.singleton_append]
  | case4 seen rest hnil heof hentity =>
      obtain ⟨token, more, rfl⟩ := h.cases
      rw [run_loop, entityPart, bind_assoc, run_peek_bind h,
        if_neg fun ht => heof more (by rw [ht]), if_neg fun ht => hentity more (by rw [ht])]
      exact ⟨position, Nat.le_of_lt h.lt, rfl⟩

/-- **The walk over a document comes to what the parser gives**, and stays within the list. -/
theorem document_reached (h : Ahead tokens position rest) :
    Reaches tokens Document.mk (document.run tokens position) (entities [] rest) := by
  have hnone : ∀ name, name ∈ [] ↔ name ∈ ([] : List Entity).map (·.name) := fun _ => Iff.rfl
  obtain ⟨later, hle, hloop⟩ := entities_reached h hnone
  refine ⟨later, hle, ?_⟩
  rw [document, run_bind, hloop]
  cases entities [] rest <;> rfl

end Walk

end ErModel.Source
