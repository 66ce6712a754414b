import ErModel.Proofs.Walking

/-!
# Rounds of loops

A round of a loop that is followed by another one has gone over a token. This is so from every position
with the end mark ahead, whatever the loop has found before, and the end mark is still ahead then: a
round that meets it leaves the loop, or is refused.
-/

namespace ErModel.Source.Walk

variable {α β σ : Type} {m : Nat} {tokens rest more : List Token} {position later start : Nat}
  {token : Token}

/-- How a round may end that started at this position. In front of another round some token was gone
over, and the end mark is still ahead; an error is one of the text. -/
def Advanced (tokens : List Token) (start : Nat) : Except Stop (Round σ α) × Nat → Prop
  | (.ok (.again _), later) => start < later ∧ ∃ rest, Ahead tokens later rest
  | (.ok (.leave _), later) => start ≤ later ∧ ∃ rest, Ahead tokens later rest
  | (.error (.refused _), later) => later ≤ tokens.length
  | (.error _, _) => False

/-- Every round of the loop goes over a token, leaves the loop or is refused. -/
def Advances (round : σ → Walk (Round σ α)) : Prop :=
  ∀ state tokens position rest, Ahead tokens position rest →
    Advanced tokens position ((round state).run tokens position)

/-- A round may go on behind a walk that agrees with a parser. -/
theorem Agrees.advanced {γ : Type} {f : β → γ} {walk : Walk γ} {next : γ → Walk (Round σ α)}
    {parsed : Parse β m} (h : Agrees tokens f (walk.run tokens position) parsed)
    (hn : ∀ value rest later, rest.length < m → Ahead tokens later rest →
      Advanced tokens start ((next (f value)).run tokens later)) :
    Advanced tokens start ((walk >>= next).run tokens position) := by
  rw [run_bind]
  match parsed, h with
  | .ok ⟨value, rest, shorter⟩, ⟨later, houtcome, hahead⟩ =>
    rw [houtcome]
    exact hn value rest later shorter hahead
  | .error error, ⟨later, houtcome, hle⟩ =>
    rw [houtcome]
    exact hle

theorem advances_typeArgument : Advances typeArgument := by
  intro args tokens position rest h
  obtain ⟨token, more, rfl⟩ := h.cases
  rw [typeArgument, run_advance_bind h]
  cases token with
  | num n =>
      have h₁ := h.tail (by simp)
      obtain ⟨token, behind, rfl⟩ := h₁.cases
      rw [run_advance_bind h₁]
      cases token with
      | comma => exact ⟨by omega, behind, h₁.tail (by simp)⟩
      | rParen => exact ⟨by omega, behind, h₁.tail (by simp)⟩
      | _ => exact h₁.lt
  | _ => exact h.lt

theorem advances_callArgument : Advances callArgument := by
  intro text tokens position rest h
  obtain ⟨token, more, rfl⟩ := h.cases
  by_cases heof : token = .eof
  · subst heof
    rw [callArgument, run_peek_bind h]
    exact Nat.le_of_lt h.lt
  · have h₁ := h.tail heof
    by_cases hparen : token = .rParen
    · subst hparen
      rw [callArgument, run_peek_bind h, run_advance_bind h]
      exact ⟨Nat.le_succ _, more, h₁⟩
    · rw [run_callArgument h heof hparen]
      exact ⟨Nat.lt_succ_self _, more, h₁⟩

theorem advances_hintPart : Advances hintPart := by
  intro key tokens position rest h
  obtain ⟨token, more, rfl⟩ := h.cases
  rw [hintPart, run_peek_bind h]
  by_cases ht : token = .dot
  · subst ht
    rw [if_pos rfl, run_advance_bind h]
    refine (identifier_agrees (h.tail (by simp))).advanced fun word rest later hlt h₁ => ?_
    exact ⟨(h.progress h₁ (Nat.lt_succ_of_lt hlt)).1, rest, h₁⟩
  · rw [if_neg ht]
    exact ⟨Nat.le_refl _, _, h⟩

theorem advances_optionPart : Advances optionPart := by
  intro options tokens position rest h
  obtain ⟨token, more, rfl⟩ := h.cases
  rw [optionPart, run_peek_bind h]
  by_cases ht : token = .rBracket
  · rw [if_pos ht]
    exact ⟨Nat.le_refl _, _, h⟩
  · rw [if_neg ht]
    refine (referenceOption_agrees h).advanced fun option rest later hlt h₁ => ?_
    have hprogress := (h.progress h₁ hlt).1
    obtain ⟨token, behind, rfl⟩ := h₁.cases
    rw [run_peek_bind h₁]
    by_cases hcomma : token = .comma
    · subst hcomma
      rw [if_pos rfl, run_advance_bind h₁]
      exact ⟨Nat.lt_succ_of_lt hprogress, behind, h₁.tail (by simp)⟩
    · rw [if_neg hcomma]
      exact ⟨Nat.le_of_lt hprogress, _, h₁⟩

theorem advances_modifier : Advances modifier := by
  intro found tokens position rest h
  obtain ⟨token, more, rfl⟩ := h.cases
  rw [modifier, run_peek_bind h]
  cases token with
  | ident word =>
      have hrel := modifierAfter?_agrees (h.tail (by simp)) word
      dsimp only
      cases hwalk : modifierAfter? word with
      | none => exact ⟨Nat.le_refl _, _, h⟩
      | some walk =>
          rw [hwalk] at hrel
          generalize Source.modifierAfter? word more = parsed at hrel
          cases hrel with
          | some hagrees =>
              dsimp only
              rw [run_advance_bind h]
              refine hagrees.advanced fun first rest later hlt h₁ => ?_
              exact ⟨(h.progress h₁ hlt).1, rest, h₁⟩
  | _ => exact ⟨Nat.le_refl _, _, h⟩

theorem advances_bodyPart (entity : String) : Advances (bodyPart entity) := by
  intro found tokens position rest h
  obtain ⟨token, more, rfl⟩ := h.cases
  rw [bodyPart, run_peek_bind h]
  by_cases hclose : token = .rBrace
  · rw [if_pos hclose]
    exact ⟨Nat.le_refl _, _, h⟩
  rw [if_neg hclose]
  by_cases hat : token = .at
  · subst hat
    rw [if_pos rfl]
    refine (hint_agrees h).advanced fun first rest later hlt h₁ => ?_
    exact ⟨(h.progress h₁ (Nat.lt_succ_of_lt hlt)).1, rest, h₁⟩
  · rw [if_neg hat]
    refine (property_agrees h).advanced fun first rest later hlt h₁ => ?_
    dsimp only [id]
    split
    · exact Nat.le_of_lt h₁.lt
    · exact ⟨(h.progress h₁ hlt).1, rest, h₁⟩

theorem advances_entityPart : Advances entityPart := by
  intro found tokens position rest h
  obtain ⟨token, more, rfl⟩ := h.cases
  rw [entityPart, run_peek_bind h]
  by_cases heof : token = .eof
  · rw [if_pos heof]
    exact ⟨Nat.le_refl _, _, h⟩
  rw [if_neg heof]
  by_cases hentity : token = .ident "entity"
  · subst hentity
    rw [if_pos rfl, run_advance_bind h]
    refine (entity_agrees (h.tail (by simp))).advanced fun first rest later hlt h₁ => ?_
    dsimp only [id]
    split
    · exact Nat.le_of_lt h₁.lt
    · exact ⟨(h.progress h₁ (Nat.lt_succ_of_lt hlt)).1, rest, h₁⟩
  · rw [if_neg hentity]
    exact Nat.le_of_lt h.lt

/-- The loops of the walk over a document. -/
structure LoopsAdvance : Prop where
  entities : Advances entityPart
  body (entity : String) : Advances (bodyPart entity)
  modifiers : Advances modifier
  typeArguments : Advances typeArgument
  callArguments : Advances callArgument
  hintPath : Advances hintPart
  options : Advances optionPart

/-- **No loop goes round without going over a token.** -/
theorem loopsAdvance : LoopsAdvance where
  entities := advances_entityPart
  body := advances_bodyPart
  modifiers := advances_modifier
  typeArguments := advances_typeArgument
  callArguments := advances_callArgument
  hintPath := advances_hintPart
  options := advances_optionPart

end ErModel.Source.Walk
