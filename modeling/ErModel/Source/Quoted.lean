/-!
# Quoted text

Text that is no plain word stands between double quotes. Inside, a backslash takes the meaning
off the character behind it, but for `n`, `t` and `r`, which stand for line end, tab and return.
Reading undoes writing, whatever follows the closing quote.
-/

namespace ErModel.Source.Quoted

/-- A character between quotes. -/
def encodeChar (c : Char) : List Char :=
  if c = '"' then ['\\', '"']
  else if c = '\\' then ['\\', '\\']
  else if c = '\n' then ['\\', 'n']
  else if c = '\t' then ['\\', 't']
  else if c = '\r' then ['\\', 'r']
  else [c]

/-- A text between quotes. -/
def encode (text : String) : String :=
  String.ofList ('"' :: text.toList.flatMap encodeChar ++ ['"'])

/-- What a character behind a backslash stands for. -/
def unescape (c : Char) : Char :=
  if c = 'n' then '\n' else if c = 't' then '\t' else if c = 'r' then '\r' else c

/-- Reads up to the closing quote, if there is one: the text, and what follows. -/
def decode? : List Char → Option (List Char × List Char)
  | [] => none
  | '"' :: rest => some ([], rest)
  | ['\\'] => none
  | '\\' :: c :: rest => (decode? rest).map fun (text, rest) => (unescape c :: text, rest)
  | c :: rest => (decode? rest).map fun (text, rest) => (c :: text, rest)

theorem length_decode?_lt {source text rest : List Char} (h : decode? source = some (text, rest)) :
    rest.length < source.length := by
  fun_induction decode? source generalizing text rest with
  | case1 => simp at h
  | case2 => simp_all
  | case3 => simp at h
  | case4 c tail ih =>
    simp only [Option.map_eq_some_iff, Prod.exists, Prod.mk.injEq] at h
    obtain ⟨t, r, h, -, rfl⟩ := h
    have := ih h
    simp only [List.length_cons]
    omega
  | case5 c tail _ _ _ ih =>
    simp only [Option.map_eq_some_iff, Prod.exists, Prod.mk.injEq] at h
    obtain ⟨t, r, h, -, rfl⟩ := h
    have := ih h
    simp only [List.length_cons]
    omega

theorem decode?_encodeChar (c : Char) (rest : List Char) :
    decode? (encodeChar c ++ rest) = (decode? rest).map fun (text, rest) => (c :: text, rest) := by
  unfold encodeChar
  split
  · subst_vars; simp [decode?, unescape]
  split
  · subst_vars; simp [decode?, unescape]
  split
  · subst_vars; simp [decode?, unescape]
  split
  · subst_vars; simp [decode?, unescape]
  split
  · subst_vars; simp [decode?, unescape]
  rw [List.cons_append, List.nil_append, decode?]
  all_goals simp_all

/-- Reading what was written gives it back, and nothing of what follows. -/
theorem decode?_encode (text rest : List Char) :
    decode? (text.flatMap encodeChar ++ '"' :: rest) = some (text, rest) := by
  induction text with
  | nil => rfl
  | cons c tail ih => simp [List.append_assoc, decode?_encodeChar, ih]

end ErModel.Source.Quoted
