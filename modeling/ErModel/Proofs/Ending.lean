import ErModel.Proofs.Brackets
import ErModel.Proofs.Cutting
import ErModel.Proofs.Rounds

/-!
# Reading ends

Reading a source text ends on every text. Each token costs at least one character, so the lexer comes
to an error or to tokens with the end mark once, at the end. Each round of a loop of the parser costs
at least one token, and the end mark is never gone over without an error, so the parser comes to its
result before it has gone over more tokens than there are, and never looks behind them. A bracket or a
quote that is not closed makes it an error.
-/

namespace ErModel.Source

/-- A quote of the text is not closed, or a bracket among its tokens. -/
def Unclosed (source : String) : Prop :=
  quoteOpen .plain source.toList = true ∨ ∃ ts, tokens source = .ok ts ∧ openBrackets [] ts ≠ []

/-- Where the tokens end with the end mark, it is ahead of the start. -/
theorem Ended.ahead {ts : List Token} (h : Ended ts) : Ahead ts 0 ts where
  drop := rfl
  ends := by
    obtain ⟨read, rfl, -⟩ := h
    exact List.mem_append_right _ List.mem_cons_self

/-- The tokens of a text are taken off it one after another. -/
theorem tokens_cut {source : String} {ts : List Token} (h : tokens source = .ok ts) :
    CutInto source.toList ts :=
  cutInto_of_scan h

/-- **What is not closed is an error.** -/
theorem parse_unclosed {source : String} (h : Unclosed source) :
    ∃ error, parse source = .error error := by
  unfold parse
  split
  · exact ⟨_, rfl⟩
  · rename_i ts hts
    cases hparsed : entities [] ts with
    | error error => exact ⟨error, rfl⟩
    | ok es =>
        rcases h with hquote | ⟨ts', hts', hopen⟩
        · rw [(tokens_cut hts).quoteOpen_eq] at hquote
          cases hquote
        · obtain rfl : ts' = ts := Except.ok.inj (hts'.symm.trans hts)
          exact absurd (entities_closed hparsed) hopen

/-- **Reading ends on every text.** A token takes at least the character that it starts with. The
lexer gives an error, or the text is cut into tokens with the end mark once, at their end. Each round
of a loop of the walk goes over a token, or it is the last one. From such tokens the walk over a
document comes to what the parser gives: so it never looks behind the last token, and it goes over each
token at most once. What is not closed is an error. -/
theorem reading_ends (source : String) :
    (∀ c text token rest, Takes c text token rest → token ≠ .eof ∧ rest <:+ text) ∧
    ((∃ error, tokens source = .error error ∧ parse source = .error (.lex error)) ∨
      ∃ ts, tokens source = .ok ts ∧ CutInto source.toList ts ∧ Ended ts ∧
        ts.length ≤ source.length + 1 ∧ parse source = Document.mk <$> entities [] ts) ∧
    Walk.LoopsAdvance ∧
    (∀ ts, Ended ts → ∃ advances ≤ ts.length, Walk.document.run ts 0 =
      ((Document.mk <$> entities [] ts).mapError .refused, advances)) ∧
    (Unclosed source → ∃ error, parse source = .error error) := by
  refine ⟨?_, ?_, Walk.loopsAdvance, ?_, parse_unclosed⟩
  · intro c text token rest h
    obtain ⟨hne, taken, htext, -⟩ := h.plainly
    exact ⟨hne, taken, htext.symm⟩
  · cases hts : tokens source with
    | error error => exact Or.inl ⟨error, rfl, by rw [parse, hts]⟩
    | ok ts =>
        have hcut := tokens_cut hts
        exact Or.inr ⟨ts, rfl, hcut, hcut.ended, hcut.length_le, by rw [parse, hts]⟩
  · intro ts h
    exact Walk.document_reached h.ahead

/-- A call that nothing closes: its bracket is between quotes, and once more in a comment. -/
def openCall : String := "entity T \x7b id uuid default f(\")\" # ) \x7d"

/-- The tokens of that text. -/
def openCallTokens : List Token :=
  [.ident "entity", .ident "T", .lBrace, .ident "id", .ident "uuid", .ident "default", .ident "f",
    .lParen, .str ")", .eof]

theorem openCall_refused :
    (Takes 'i' ['d', ' '] (.ident "id") [' '] ∧ [' '] <:+ ['d', ' ']) ∧
    (Ended openCallTokens ∧ ∃ advances ≤ 10, Walk.document.run openCallTokens 0 =
      (.error (.refused (.unexpected .eof .closingParen)), advances)) ∧
    Unclosed openCall ∧ ∃ error, parse openCall = .error error := by
  have htokens : tokens openCall = .ok openCallTokens := ok_of_toOption (by decide +kernel)
  have hended : Ended openCallTokens := ⟨openCallTokens.dropLast, rfl, by simp [openCallTokens]⟩
  have hunclosed : Unclosed openCall := Or.inr ⟨openCallTokens, htokens, by decide⟩
  have htakes : Takes 'i' (['d'] ++ [' ']) (.ident (String.ofList ['i', 'd'])) [' '] :=
    takes_word (by decide +kernel) (List.forall_mem_singleton.mpr (by decide +kernel)) fun c hc => by
      cases hc
      decide +kernel
  have hrefused : entities [] openCallTokens = .error (.unexpected .eof .closingParen) := by
    decide +kernel
  obtain ⟨htaking, -, -, hwalks, hclosed⟩ := reading_ends openCall
  obtain ⟨advances, hle, hwalk⟩ := hwalks openCallTokens hended
  rw [hrefused] at hwalk
  exact ⟨⟨htakes, (htaking 'i' ['d', ' '] _ [' '] htakes).2⟩, ⟨hended, advances, hle, hwalk⟩,
    hunclosed, hclosed hunclosed⟩

end ErModel.Source
