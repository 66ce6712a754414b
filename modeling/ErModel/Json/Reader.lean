import ErModel.Json.Numeral

/-!
# Reading JSON

A JSON text is read in three steps. The scanner cuts it into lexemes. A machine with a stack of
open containers then finds the outline of the value; since it only ever looks at one lexeme, it is
a fold and reading ends by itself. At last the outline becomes a value, and only here the parts
are judged: a numeral too large for binary64, half a surrogate pair and too deep a nesting are
well-formed text without a value. A place that ignores what it reads stops at the outline.
-/

namespace ErModel.Json

/-- The smallest parts of a JSON text. -/
inductive Lexeme where
  | openArray
  | closeArray
  | openObject
  | closeObject
  | colon
  | comma
  | null
  | bool (value : Bool)
  /-- A numeral, with its number unless that is too large. -/
  | number (value? : Option Number)
  /-- A quoted text, unless it names half a surrogate pair. -/
  | text (value? : Option String)

/-- A value as it stands in a text, before its parts are judged. -/
inductive Outline where
  | null
  | bool (value : Bool)
  | number (value? : Option Number)
  | text (value? : Option String)
  | array (items : List Outline)
  | object (members : List (Option String × Outline))

/-! ## Quoted text -/

/-- A part of a quoted text: a character, or a 16-bit unit written with four digits. -/
inductive Piece where
  | char (c : Char)
  | unit (value : Nat)

/-- The value of a hexadecimal digit. -/
def hexValue? (c : Char) : Option Nat :=
  if '0' ≤ c && c ≤ '9' then some (c.toNat - '0'.toNat)
  else if 'a' ≤ c && c ≤ 'f' then some (c.toNat - 'a'.toNat + 10)
  else if 'A' ≤ c && c ≤ 'F' then some (c.toNat - 'A'.toNat + 10)
  else none

/-- The unit that four hexadecimal digits name. -/
def unitOf? (a b c d : Char) : Option Nat := do
  some (4096 * (← hexValue? a) + 256 * (← hexValue? b) + 16 * (← hexValue? c) + (← hexValue? d))

/-- What a letter after a backslash stands for. -/
def escaped? : Char → Option Char
  | '"' => some '"'
  | '\\' => some '\\'
  | '/' => some '/'
  | 'b' => some '\x08'
  | 'f' => some '\x0c'
  | 'n' => some '\n'
  | 'r' => some '\r'
  | 't' => some '\t'
  | _ => none

/-- Takes the pieces of a quoted text up to its closing quote. Control characters must be escaped. -/
def readPieces : List Char → Option (List Piece × List Char)
  | '"' :: rest => some ([], rest)
  | '\\' :: 'u' :: a :: b :: c :: d :: rest =>
    (unitOf? a b c d).bind fun unit =>
      (readPieces rest).map fun (pieces, rest) => (.unit unit :: pieces, rest)
  | '\\' :: c :: rest =>
    (escaped? c).bind fun c => (readPieces rest).map fun (pieces, rest) => (.char c :: pieces, rest)
  | c :: rest =>
    if c.toNat < 0x20 || c = '\\' then none
    else (readPieces rest).map fun (pieces, rest) => (.char c :: pieces, rest)
  | [] => none

/-- The characters that pieces stand for. Units of a surrogate pair make one character together,
and none alone. -/
def charsOf? : List Piece → Option (List Char)
  | [] => some []
  | .char c :: rest => (charsOf? rest).map (c :: ·)
  | .unit high :: .unit low :: rest =>
    if 0xD800 ≤ high && high < 0xDC00 then
      if 0xDC00 ≤ low && low < 0xE000 then
        (charsOf? rest).map
          (Char.ofNat (0x10000 + (high - 0xD800) * 0x400 + (low - 0xDC00)) :: ·)
      else none
    else if 0xDC00 ≤ high && high < 0xE000 then none
    else (charsOf? (.unit low :: rest)).map (Char.ofNat high :: ·)
  | .unit n :: rest =>
    if 0xD800 ≤ n && n < 0xE000 then none else (charsOf? rest).map (Char.ofNat n :: ·)

theorem length_readPieces_lt {source rest : List Char} {pieces : List Piece}
    (h : readPieces source = some (pieces, rest)) : rest.length < source.length := by
  fun_induction readPieces source generalizing pieces rest with
  | case1 => simp_all
  | case2 a b c d tail ih =>
    simp only [Option.bind_eq_some_iff, Option.map_eq_some_iff, Prod.exists, Prod.mk.injEq] at h
    obtain ⟨-, -, p, r, h, -, rfl⟩ := h
    have := ih h
    simp only [List.length_cons]
    omega
  | case3 c tail _ ih =>
    simp only [Option.bind_eq_some_iff, Option.map_eq_some_iff, Prod.exists, Prod.mk.injEq] at h
    obtain ⟨-, -, p, r, h, -, rfl⟩ := h
    have := ih h
    simp only [List.length_cons]
    omega
  | case4 => simp at h
  | case5 c tail _ _ _ _ ih =>
    simp only [Option.map_eq_some_iff, Prod.exists, Prod.mk.injEq] at h
    obtain ⟨p, r, h, -, rfl⟩ := h
    have := ih h
    simp only [List.length_cons]
    omega
  | case6 => simp at h

/-! ## Lexemes -/

/-- The lexemes of a text. Blank, tab and line ends stand between them. -/
def lexemes? : List Char → Option (List Lexeme)
  | [] => some []
  | ' ' :: rest | '\t' :: rest | '\n' :: rest | '\r' :: rest => lexemes? rest
  | '[' :: rest => (lexemes? rest).map (.openArray :: ·)
  | ']' :: rest => (lexemes? rest).map (.closeArray :: ·)
  | '{' :: rest => (lexemes? rest).map (.openObject :: ·)
  | '}' :: rest => (lexemes? rest).map (.closeObject :: ·)
  | ':' :: rest => (lexemes? rest).map (.colon :: ·)
  | ',' :: rest => (lexemes? rest).map (.comma :: ·)
  | 'n' :: 'u' :: 'l' :: 'l' :: rest => (lexemes? rest).map (.null :: ·)
  | 't' :: 'r' :: 'u' :: 'e' :: rest => (lexemes? rest).map (.bool true :: ·)
  | 'f' :: 'a' :: 'l' :: 's' :: 'e' :: rest => (lexemes? rest).map (.bool false :: ·)
  | '"' :: rest =>
    match h : readPieces rest with
    | none => none
    | some (pieces, rest') =>
      have := length_readPieces_lt h
      (lexemes? rest').map (.text ((charsOf? pieces).map String.ofList) :: ·)
  | c :: rest =>
    match h : readNumeral (c :: rest) with
    | none => none
    | some (numeral, rest') =>
      have := length_readNumeral_lt h
      (lexemes? rest').map (.number numeral.value? :: ·)
termination_by source => source.length
decreasing_by all_goals simp only [List.length_cons] at *; omega

/-! ## The outline -/

/-- A container that is still open, with what it holds so far, the last first. -/
inductive Container where
  | items (done : List Outline)
  /-- An object that waits for the value of `key`. -/
  | members (done : List (Option String × Outline)) (key : Option String)

/-- What may come next, inside the containers that are open. -/
inductive Reading where
  | value (outer : List Container)
  /-- Just after `[`: an item or the end. -/
  | firstItem (outer : List Container)
  /-- Just after an opening brace: a key or the end. -/
  | firstKey (outer : List Container)
  | key (done : List (Option String × Outline)) (outer : List Container)
  | colon (done : List (Option String × Outline)) (key : Option String) (outer : List Container)
  /-- A value has ended. -/
  | after (value : Outline) (outer : List Container)

/-- A lexeme where a value is wanted. -/
def Reading.begin (outer : List Container) : Lexeme → Option Reading
  | .openArray => some (.firstItem outer)
  | .openObject => some (.firstKey outer)
  | .null => some (.after .null outer)
  | .bool b => some (.after (.bool b) outer)
  | .number n => some (.after (.number n) outer)
  | .text t => some (.after (.text t) outer)
  | _ => none

/-- One step of the machine. -/
def Reading.step : Reading → Lexeme → Option Reading
  | .value outer, lexeme => Reading.begin outer lexeme
  | .firstItem outer, .closeArray => some (.after (.array []) outer)
  | .firstItem outer, lexeme => Reading.begin (.items [] :: outer) lexeme
  | .firstKey outer, .closeObject => some (.after (.object []) outer)
  | .firstKey outer, .text k => some (.colon [] k outer)
  | .key done outer, .text k => some (.colon done k outer)
  | .colon done k outer, .colon => some (.value (.members done k :: outer))
  | .after v (.items done :: outer), .comma => some (.value (.items (v :: done) :: outer))
  | .after v (.items done :: outer), .closeArray =>
    some (.after (.array (v :: done).reverse) outer)
  | .after v (.members done k :: outer), .comma => some (.key ((k, v) :: done) outer)
  | .after v (.members done k :: outer), .closeObject =>
    some (.after (.object ((k, v) :: done).reverse) outer)
  | _, _ => none

/-- The outline of the value that lexemes spell, if they spell one and no more. -/
def outlineOf? (lexemes : List Lexeme) : Option Outline :=
  match lexemes.foldlM Reading.step (.value []) with
  | some (.after value []) => some value
  | _ => none

/-- The outline of the value that a text spells. -/
def Outline.read? (source : String) : Option Outline :=
  (lexemes? source.toList).bind outlineOf?

/-! ## The value -/

/-- How deep containers may be nested in a value that is kept. -/
def depthLimit : Nat := 127

mutual
/-- The value of an outline, if all its parts have one and at most `room` containers are nested. -/
def Outline.value? (room : Nat) : Outline → Option Json
  | .null => some .null
  | .bool b => some (.bool b)
  | .number n => n.map .number
  | .text t => t.map .text
  | .array items => if room = 0 then none else (itemValues? (room - 1) items).map .array
  | .object members =>
    if room = 0 then none else (memberValues? (room - 1) members).map .object
termination_by structural outline => outline

/-- The values of items. -/
def itemValues? (room : Nat) : List Outline → Option (List Json)
  | [] => some []
  | item :: rest => do some ((← item.value? room) :: (← itemValues? room rest))
termination_by structural items => items

/-- The values of members. -/
def memberValues? (room : Nat) : List (Option String × Outline) → Option (List (String × Json))
  | [] => some []
  | member :: rest => do some ((← memberValue? room member) :: (← memberValues? room rest))
termination_by structural members => members

/-- The key and the value of a member. -/
def memberValue? (room : Nat) : Option String × Outline → Option (String × Json)
  | (key, value) => do some (← key, ← value.value? room)
termination_by structural member => member
end

mutual
/-- The value with one member for each key: of members with the same key the last counts. -/
def settled : Json → Json
  | .array items => .array (settledItems items)
  | .object members => .object (settledMembers [] members)
  | other => other
termination_by structural value => value

/-- The items, each settled. -/
def settledItems : List Json → List Json
  | [] => []
  | item :: rest => settled item :: settledItems rest
termination_by structural items => items

/-- The members that are left of `done` and those that follow. -/
def settledMembers (done : List (String × Json)) : List (String × Json) → List (String × Json)
  | [] => done
  | member :: rest =>
    settledMembers (put (settledMember member).1 (settledMember member).2 done) rest
termination_by structural members => members

/-- A member with its value settled. -/
def settledMember : String × Json → String × Json
  | (key, value) => (key, settled value)
termination_by structural member => member
end

/-- The value that a text spells. -/
def read? (source : String) : Option Json :=
  ((Outline.read? source).bind (Outline.value? depthLimit)).map settled

end ErModel.Json
