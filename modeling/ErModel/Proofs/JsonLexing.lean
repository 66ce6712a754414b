import ErModel.Json.Reader
import ErModel.Proofs.JsonNumerals

/-!
# Lexemes of a JSON text

What the writer of JSON puts down for a text or a number is read as that text or number, whatever
stands behind it. A quoted text ends with its quote. A numeral goes on as far as it can, so what
follows it must not be able to belong to it; in a document that is a comma or a line end.
-/

namespace ErModel.Json

/-! ## Punctuation -/

/-- The lexeme that a mark is by itself. -/
def markOf? : Char → Option Lexeme
  | '[' => some .openArray
  | ']' => some .closeArray
  | '\x7b' => some .openObject
  | '\x7d' => some .closeObject
  | ':' => some .colon
  | ',' => some .comma
  | _ => none

theorem lexemes?_mark {c : Char} {lexeme : Lexeme} (h : markOf? c = some lexeme)
    (rest : List Char) : lexemes? (c :: rest) = (lexemes? rest).map (lexeme :: ·) := by
  unfold markOf? at h
  split at h <;> cases h <;> rw [lexemes?]

/-! ## Quoted text -/

/-- The part of a quoted text that a character is written as. -/
def pieceOf (c : Char) : Piece :=
  if shortForms.lookup c = none ∧ c.toNat < 0x20 then .unit c.toNat else .char c

theorem readPieces_control {c : Char} (hc : c.toNat < 0x20) (rest : List Char) :
    readPieces (writeControl c ++ rest) =
      (readPieces rest).map fun (pieces, rest) => (.unit c.toNat :: pieces, rest) := by
  have hunit : ∀ n < 0x20,
      unitOf? '0' '0' (Nat.digitChar (n / 16)) (Nat.digitChar (n % 16)) = some n := by decide
  show readPieces ('\\' :: 'u' :: '0' :: '0' :: _ :: _ :: rest) = _
  rw [readPieces, hunit c.toNat hc]
  rfl

theorem readPieces_plain {c : Char} (hnone : shortForms.lookup c = none) (hc : ¬ c.toNat < 0x20)
    (rest : List Char) : readPieces (c :: rest) =
      (readPieces rest).map fun (pieces, rest) => (.char c :: pieces, rest) := by
  have hquote : c ≠ '"' := by
    rintro rfl
    cases hnone
  have hslash : c ≠ '\\' := by
    rintro rfl
    cases hnone
  rw [readPieces]
  · rw [if_neg (by simp [hc, hslash])]
  · exact fun he => absurd he hquote
  · exact fun _ _ _ _ _ he => absurd he hslash
  · exact fun _ _ he => absurd he hslash

/-- A character is read as the piece that it is written as. -/
theorem readPieces_writeChar (c : Char) (rest : List Char) : readPieces (writeChar c ++ rest) =
    (readPieces rest).map fun (pieces, rest) => (pieceOf c :: pieces, rest) := by
  cases hform : shortForms.lookup c with
  | some letter =>
      have hpiece : pieceOf c = .char c := if_neg fun h => by rw [hform] at h; cases h.1
      have hread : ∀ form ∈ shortForms, readPieces ('\\' :: form.2 :: rest) =
          (readPieces rest).map fun (pieces, rest) => (.char form.1 :: pieces, rest) := by
        intro form hmem
        simp only [shortForms, List.mem_cons, List.not_mem_nil, or_false] at hmem
        rcases hmem with rfl | rfl | rfl | rfl | rfl | rfl | rfl <;> simp [readPieces, escaped?]
      rw [writeChar, hform, hpiece]
      exact hread (c, letter) (mem_of_lookup hform)
  | none =>
      rw [writeChar, hform]
      by_cases hc : c.toNat < 0x20
      · have hpiece : pieceOf c = .unit c.toNat := if_pos ⟨hform, hc⟩
        rw [hpiece]
        exact (congrArg (fun text => readPieces (text ++ rest)) (if_pos hc)).trans
          (readPieces_control hc rest)
      · have hpiece : pieceOf c = .char c := if_neg fun h => hc h.2
        rw [hpiece]
        exact (congrArg (fun text => readPieces (text ++ rest)) (if_neg hc)).trans
          (readPieces_plain hform hc rest)

theorem readPieces_writeChars (chars rest : List Char) :
    readPieces (chars.flatMap writeChar ++ '"' :: rest) = some (chars.map pieceOf, rest) := by
  induction chars with
  | nil => simp [readPieces]
  | cons c chars ih =>
      rw [List.flatMap_cons, List.append_assoc, readPieces_writeChar, ih]
      rfl

/-- A unit that is no half of a pair stands for a character, whatever follows. -/
theorem charsOf?_unit {n : Nat} (hn : n < 0xD800) (pieces : List Piece) :
    charsOf? (.unit n :: pieces) = (charsOf? pieces).map (Char.ofNat n :: ·) := by
  have hhigh : ¬ (0xD800 ≤ n) := by omega
  have hlow : ¬ (0xDC00 ≤ n) := by omega
  cases pieces with
  | nil => simp [charsOf?, hhigh]
  | cons piece rest => cases piece <;> simp [charsOf?, hhigh, hlow]

theorem charsOf?_pieces (chars : List Char) : charsOf? (chars.map pieceOf) = some chars := by
  induction chars with
  | nil => rfl
  | cons c chars ih =>
      rw [List.map_cons]
      by_cases hc : shortForms.lookup c = none ∧ c.toNat < 0x20
      · rw [pieceOf, if_pos hc, charsOf?_unit (by omega), ih, Option.map_some,
          Char.ofNat_toNat]
      · rw [pieceOf, if_neg hc, charsOf?, ih, Option.map_some]

/-- **A quoted text is read as the text.** -/
theorem lexemes?_text (value : String) (rest : List Char) :
    lexemes? (writeText value ++ rest) = (lexemes? rest).map (.text (some value) :: ·) := by
  have htext : writeText value ++ rest =
      '"' :: (value.toList.flatMap writeChar ++ '"' :: rest) := by
    rw [writeText, List.append_assoc]
    rfl
  rw [htext, lexemes?]
  split
  · rename_i h
    rw [readPieces_writeChars] at h
    cases h
  · rename_i h
    rw [readPieces_writeChars] at h
    cases h
    rw [charsOf?_pieces, Option.map_some, String.ofList_toList]

/-! ## Numerals -/

/-- **A number that is legible is read as the number.** -/
theorem lexemes?_number {n : Number} {rest : List Char} (hn : n.Legible)
    (hs : Source.Stops continues rest) :
    lexemes? (writeNumber n ++ rest) = (lexemes? rest).map (.number (some n) :: ·) := by
  obtain ⟨numeral, hread, hvalue⟩ := hn
  obtain ⟨c, more, hsource, hc⟩ := head_of_readNumeral hread
  have hread := readNumeral_append hs hread
  rw [hsource, List.nil_append] at hread
  rw [hsource]
  have hne : ∀ d, Text.isDigit d = false → d ≠ '-' → c ≠ d := by
    rintro d hd hminus rfl
    exact hc.elim hminus (by rw [hd]; exact Bool.false_ne_true)
  rw [List.cons_append, lexemes?]
  · split
    · rename_i h
      rw [← List.cons_append, hread] at h
      cases h
    · rename_i h
      rw [← List.cons_append, hread] at h
      cases h
      rw [hvalue]
  -- the numeral starts with none of the characters that other lexemes start with
  all_goals first
    | exact hne _ (by decide) (by decide)
    | exact fun _ he _ => hne _ (by decide) (by decide) he

end ErModel.Json
