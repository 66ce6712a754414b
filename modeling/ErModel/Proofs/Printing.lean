import ErModel.Proofs.Bare
import ErModel.Source.Printer

/-!
# The tokens of what is printed

Each part of a document has tokens, and printing writes exactly those, whatever the names and texts
in it are: a name that would be taken for something else is quoted, and quoting can be undone. What
cannot be quoted has to be a word by itself, or as a default value a call that stays what it is; an
integer has to fit 64 bits and a decimal has to be finite.
-/

namespace ErModel.Source

/-! ## Tokens -/

/-- The token of a name. -/
def nameToken (name : String) : Token :=
  if name ∉ keywords && isWord name then .ident name else .str name

/-- The words between the dots in the key of a hint. -/
def keyWords (key : String) : List String := (key.toList.splitOn '.').map String.ofList

/-- Tokens of items with marks between them. -/
def separated {α : Type} (mark : Token) (f : α → List Token) : List α → List Token
  | [] => []
  | x :: rest => f x ++ rest.flatMap fun y => mark :: f y

/-- The token of the value of a hint. -/
def HintValue.token : HintValue → Token
  | .int n => .num n
  | .str text => .str text
  | .ident word => .ident word

/-- The tokens of a hint. -/
def Hint.tokens (hint : Hint) : List Token :=
  .at :: separated .dot (fun word => [.ident word]) (keyWords hint.key) ++ [.eq, hint.value.token]

/-- The tokens of a type. -/
def TypeRef.tokens (type : TypeRef) : List Token :=
  .ident type.name ::
    if type.args.isEmpty then []
    else .lParen :: separated .comma (fun n => [.num n]) type.args ++ [.rParen]

/-- The tokens of a literal: more than one only if it is a call. -/
def Literal.tokens : Literal → List Token
  | .int n => [.num n]
  | .decimal x => [.decimal x]
  | .str text => [.str text]
  | .ident text => bareTokens text

/-- The tokens of an option of a foreign key. -/
def ReferenceOption.tokens : ReferenceOption → List Token
  | .kind word => [.ident word]
  | .onDelete word => [.ident "on_delete", .eq, .ident word]
  | .onUpdate word => [.ident "on_update", .eq, .ident word]
  | .through name => [.ident "through", .eq, nameToken name]
  | .join name referenced =>
    [.ident "join", .eq, nameToken name, .arrow, nameToken referenced]
  | .inverse name referenced =>
    [.ident "inverse", .eq, nameToken name, .arrow, nameToken referenced]

/-- The tokens of a foreign key. -/
def Reference.tokens (reference : Reference) : List Token :=
  [.ident "fk", .arrow, nameToken reference.target, .dot, nameToken reference.column] ++
    if reference.options.isEmpty then []
    else .lBracket :: separated .comma ReferenceOption.tokens reference.options ++ [.rBracket]

/-- The tokens of a modifier. -/
def Modifier.tokens : Modifier → List Token
  | .pk => [.ident "pk"]
  | .unique => [.ident "unique"]
  | .index => [.ident "index"]
  | .null => [.ident "null"]
  | .notNull => [.ident "not", .ident "null"]
  | .increment => [.ident "increment"]
  | .default value => .ident "default" :: value.tokens
  | .map name => [.ident "map", .str name]
  | .collate name => [.ident "collate", .str name]
  | .doc text => [.ident "doc", .str text]
  | .fk reference => reference.tokens

/-- The tokens of a property, its modifiers in the order in which they are written. -/
def Property.tokens (property : Property) : List Token :=
  nameToken property.name :: property.type.tokens ++
    (ordered property.modifiers).flatMap Modifier.tokens

/-- The tokens of an entity. -/
def Entity.tokens (entity : Entity) : List Token :=
  [.ident "entity", nameToken entity.name, .lBrace] ++ entity.hints.flatMap Hint.tokens ++
    entity.properties.flatMap Property.tokens ++ [.rBrace]

/-! ## What can be printed -/

/-- The value is written as one token. -/
def HintValue.Printable : HintValue → Prop
  | .int n => Fits n
  | .str _ => True
  | .ident word => isWord word = true

/-- The key is words with dots between them, and the value can be printed. -/
structure Hint.Printable (hint : Hint) : Prop where
  key : ∀ word ∈ keyWords hint.key, isWord word = true
  value : hint.value.Printable

/-- The type is a word, and its arguments fit. -/
structure TypeRef.Printable (type : TypeRef) : Prop where
  name : isWord type.name = true
  args : ∀ n ∈ type.args, Fits n

/-- The literal is read as it is written. -/
def Literal.Printable : Literal → Prop
  | .int n => Fits n
  | .decimal x => x.isFinite = true
  | .str _ => True
  | .ident text => StaysBare text

/-- What is not a name is a word. -/
def ReferenceOption.Printable : ReferenceOption → Prop
  | .kind word | .onDelete word | .onUpdate word => isWord word = true
  | .through _ | .join .. | .inverse .. => True

/-- A default value and a foreign key have to be printable themselves. -/
def Modifier.Printable : Modifier → Prop
  | .default value => value.Printable
  | .fk reference => ∀ option ∈ reference.options, option.Printable
  | _ => True

/-- The type and all modifiers can be printed. -/
structure Property.Printable (property : Property) : Prop where
  type : property.type.Printable
  modifiers : ∀ modifier ∈ property.modifiers, modifier.Printable

/-- All hints and properties can be printed. -/
structure Entity.Printable (entity : Entity) : Prop where
  hints : ∀ hint ∈ entity.hints, hint.Printable
  properties : ∀ property ∈ entity.properties, property.Printable

/-! ## Printing writes the tokens -/

variable {rest : List Char} {tokens : List Token}

theorem ends_cons {c : Char} (hc : (isWordPart c || c = '.') = false) : Ends (c :: rest) := by
  intro d hd
  cases hd
  exact hc

theorem ends_space : Ends (' ' :: rest) := ends_cons (by decide +kernel)

theorem stops_dot : Stops isWordPart ('.' :: rest) := by
  intro c hc
  cases hc
  decide +kernel

theorem Scans.name (h : Scans rest tokens) (hs : Stops isWordPart rest) (name : String) :
    Scans ((printName name).toList ++ rest) (nameToken name :: tokens) := by
  unfold printName nameToken
  split
  · rename_i hword
    rw [Bool.and_eq_true] at hword
    exact h.word name hword.2 hs
  · exact h.quoted name

/-- A word with a space behind it. -/
theorem Scans.keyword (h : Scans rest tokens) (word : String) (hw : isWord word = true)
    {text : String} (ht : text.toList = word.toList ++ [' ']) :
    Scans (text.toList ++ rest) (.ident word :: tokens) := by
  rw [ht, List.append_assoc]
  exact h.space.word word hw ends_space.word

/-- A word that something is said to equal. -/
theorem Scans.setting (h : Scans rest tokens) (word : String) (hw : isWord word = true)
    {text : String} (ht : text.toList = word.toList ++ [' ', '=', ' ']) :
    Scans (text.toList ++ rest) (.ident word :: .eq :: tokens) := by
  rw [ht, List.append_assoc]
  exact (h.space.char .eq rfl).space.word word hw ends_space.word

theorem Scans.arrow (h : Scans rest tokens) :
    Scans (" -> ".toList ++ rest) (.arrow :: tokens) := by
  have harrow : Scans (['-', '>'] ++ ' ' :: rest) (.arrow :: tokens) := h.space.mark rfl
  exact harrow.space

theorem Scans.comma (h : Scans rest tokens) : Scans (", ".toList ++ rest) (.comma :: tokens) :=
  h.space.char .comma rfl

theorem ends_comma : Ends (", ".toList ++ rest) := ends_cons (by decide +kernel)

theorem intercalate_cons {α : Type} (sep x : List α) (xs : List (List α)) :
    sep.intercalate (x :: xs) = x ++ xs.flatMap (sep ++ ·) := by
  induction xs generalizing x with
  | nil => simp [List.intercalate]
  | cons y rest ih =>
      rw [List.flatMap_cons, List.append_assoc, ← ih]
      simp [List.intercalate]

/-- Items with marks between them; `P` is what has to hold of what follows an item. -/
theorem Scans.separated {α : Type} {mark : Token} {sep : List Char} {f : α → List Token}
    {g : α → List Char} {P : List Char → Prop} (h : Scans rest tokens) (hP : P rest)
    (hmark : ∀ {rest tokens}, Scans rest tokens → Scans (sep ++ rest) (mark :: tokens))
    (hsep : ∀ rest, P (sep ++ rest)) {items : List α}
    (hitem : ∀ x ∈ items, ∀ {rest tokens}, Scans rest tokens → P rest →
      Scans (g x ++ rest) (f x ++ tokens)) :
    Scans (sep.intercalate (items.map g) ++ rest) (separated mark f items ++ tokens) := by
  cases items with
  | nil => exact h
  | cons first items =>
      have hrest : Scans ((items.map g).flatMap (sep ++ ·) ++ rest)
          ((items.flatMap fun y => mark :: f y) ++ tokens) ∧
          P ((items.map g).flatMap (sep ++ ·) ++ rest) := by
        -- the first item has no mark before it, so the induction is on the others
        have hitems := fun x hx => @hitem x (List.mem_cons_of_mem _ hx)
        clear hitem
        induction items with
        | nil => exact ⟨h, hP⟩
        | cons y items ih =>
            obtain ⟨hs, hp⟩ := ih fun x hx => hitems x (List.mem_cons_of_mem _ hx)
            have hy := hmark (hitems y List.mem_cons_self hs hp)
            simp only [List.map_cons, List.flatMap_cons, List.append_assoc]
            exact ⟨hy, hsep _⟩
      rw [List.map_cons, intercalate_cons, List.append_assoc, Source.separated, List.append_assoc]
      exact hitem first List.mem_cons_self hrest.1 hrest.2

theorem HintValue.scans {value : HintValue} (hp : value.Printable) (h : Scans rest tokens)
    (he : Ends rest) :
    Scans ((match value with
      | .int value => toString value
      | .str text => Quoted.encode text
      | .ident word => word).toList ++ rest) (value.token :: tokens) := by
  cases value with
  | int n => exact h.int hp he
  | str text => exact h.quoted text
  | ident word => exact h.word word hp he.word

theorem toList_key (key : String) :
    key.toList = ['.'].intercalate ((keyWords key).map String.toList) := by
  have hwords : (keyWords key).map String.toList = key.toList.splitOn '.' := by
    rw [keyWords, List.map_map]
    simp [Function.comp_def]
  rw [hwords, List.intercalate_splitOn]

theorem scans_key {key : String} (hp : ∀ word ∈ keyWords key, isWord word = true)
    (h : Scans rest tokens) (hs : Stops isWordPart rest) : Scans (key.toList ++ rest)
      (separated .dot (fun word => [.ident word]) (keyWords key) ++ tokens) := by
  rw [toList_key]
  refine h.separated hs (fun h => h.mark rfl) ?_ ?_
  · exact fun _ => stops_dot
  · intro word hword _ _ h hs
    exact h.word word (hp word hword) hs

theorem Hint.Printable.scans {hint : Hint} (hp : hint.Printable) (h : Scans rest tokens) :
    Scans (hint.print.toList ++ rest) (hint.tokens ++ tokens) := by
  have hvalue := HintValue.scans hp.value h.line (ends_cons (by decide +kernel))
  have hkey := scans_key hp.key (hvalue.space.char .eq rfl).space ends_space.word
  simp only [Hint.print, Hint.tokens, String.toList_append, List.append_assoc, List.cons_append]
  exact (hkey.char .at rfl).spaces 4

theorem scans_arguments {args : List Int} (hp : ∀ n ∈ args, Fits n) (h : Scans rest tokens)
    (he : Ends rest) : Scans ((", ".intercalate (args.map toString)).toList ++ rest)
      (separated .comma (fun n => [.num n]) args ++ tokens) := by
  rw [String.toList_intercalate, List.map_map]
  refine h.separated he Scans.comma (fun _ => ends_comma) ?_
  intro n hn _ _ h he
  exact h.int (hp n hn) he

theorem TypeRef.Printable.scans {type : TypeRef} (hp : type.Printable) (h : Scans rest tokens)
    (he : Ends rest) : Scans (type.print.toList ++ rest) (type.tokens ++ tokens) := by
  unfold TypeRef.print TypeRef.tokens
  split
  · exact h.word type.name hp.name he.word
  · have hargs := scans_arguments hp.args (h.char .rParen rfl) (ends_cons (by decide +kernel))
    have hopen : ∀ text, Ends ('(' :: text) := fun _ => ends_cons (by decide +kernel)
    simp only [String.toList_append, List.append_assoc, List.cons_append]
    exact (hargs.char .lParen rfl).word type.name hp.name (hopen _).word

theorem Literal.scans {literal : Literal} (hp : literal.Printable) (h : Scans rest tokens)
    (he : Ends rest) : Scans (literal.print.toList ++ rest) (literal.tokens ++ tokens) := by
  cases literal with
  | int n => exact h.int hp he
  | decimal x => exact h.decimal hp he
  | str text => exact h.quoted text
  | ident text => exact StaysBare.scans hp h he

theorem ReferenceOption.scans {option : ReferenceOption} (hp : option.Printable)
    (h : Scans rest tokens) (he : Ends rest) :
    Scans (option.print.toList ++ rest) (option.tokens ++ tokens) := by
  cases option with
  | kind word => exact h.word word hp he.word
  | onDelete word =>
      rw [ReferenceOption.print, String.toList_append, List.append_assoc]
      exact (h.word word hp he.word).setting "on_delete" (by decide +kernel) rfl
  | onUpdate word =>
      rw [ReferenceOption.print, String.toList_append, List.append_assoc]
      exact (h.word word hp he.word).setting "on_update" (by decide +kernel) rfl
  | through name =>
      rw [ReferenceOption.print, String.toList_append, List.append_assoc]
      exact (h.name he.word name).setting "through" (by decide +kernel) rfl
  | join name referenced =>
      have harrow := (h.name he.word referenced).arrow.name ends_space.word name
      simp only [ReferenceOption.print, String.toList_append, List.append_assoc]
      exact harrow.setting "join" (by decide +kernel) rfl
  | inverse name referenced =>
      have harrow := (h.name he.word referenced).arrow.name ends_space.word name
      simp only [ReferenceOption.print, String.toList_append, List.append_assoc]
      exact harrow.setting "inverse" (by decide +kernel) rfl

theorem scans_options {options : List ReferenceOption} (hp : ∀ o ∈ options, o.Printable)
    (h : Scans rest tokens) (he : Ends rest) :
    Scans ((", ".intercalate (options.map (·.print))).toList ++ rest)
      (separated .comma ReferenceOption.tokens options ++ tokens) := by
  rw [String.toList_intercalate, List.map_map]
  refine h.separated he Scans.comma (fun _ => ends_comma) ?_
  intro option hoption _ _ h he
  exact option.scans (hp option hoption) h he

theorem Reference.scans {reference : Reference}
    (hp : ∀ option ∈ reference.options, option.Printable) (h : Scans rest tokens) (he : Ends rest) :
    Scans (reference.print.toList ++ rest) (reference.tokens ++ tokens) := by
  -- what is written before the options, which may be missing
  have htarget : ∀ {rest tokens}, Scans rest tokens → Stops isWordPart rest →
      Scans ("fk -> ".toList ++ ((printName reference.target).toList ++ (".".toList ++
        ((printName reference.column).toList ++ rest))))
        (.ident "fk" :: .arrow :: nameToken reference.target :: .dot ::
          nameToken reference.column :: tokens) := by
    intro rest tokens h hs
    have hcolumn := (h.name hs reference.column).char .dot rfl
    have harrow := (hcolumn.name stops_dot reference.target).arrow
    rw [show "fk -> " = "fk" ++ " -> " from rfl, String.toList_append, List.append_assoc]
    exact harrow.word "fk" (by decide +kernel) ends_space.word
  simp only [Reference.print, Reference.tokens, String.toList_append, List.append_assoc,
    List.cons_append, List.nil_append]
  split
  · exact htarget h he.word
  · have hoptions := scans_options hp (h.char .rBracket rfl) (ends_cons (by decide +kernel))
    have hopen := (hoptions.char .lBracket rfl).space
    simp only [String.toList_append, List.append_assoc, List.cons_append]
    exact htarget hopen ends_space.word

theorem Modifier.scans {modifier : Modifier} (hp : modifier.Printable) (h : Scans rest tokens)
    (he : Ends rest) : Scans (modifier.print.toList ++ rest) (modifier.tokens ++ tokens) := by
  have hword : ∀ word, isWord word = true → Scans (word.toList ++ rest) (.ident word :: tokens) :=
    fun word hw => h.word word hw he.word
  cases modifier with
  | pk => exact hword "pk" (by decide +kernel)
  | unique => exact hword "unique" (by decide +kernel)
  | index => exact hword "index" (by decide +kernel)
  | null => exact hword "null" (by decide +kernel)
  | increment => exact hword "increment" (by decide +kernel)
  | notNull =>
      show Scans ("not null".toList ++ rest) _
      rw [show "not null" = "not " ++ "null" from rfl, String.toList_append, List.append_assoc]
      exact (hword "null" (by decide +kernel)).keyword "not" (by decide +kernel) rfl
  | default value =>
      rw [Modifier.print, String.toList_append, List.append_assoc]
      exact (value.scans hp h he).keyword "default" (by decide +kernel) rfl
  | map name =>
      rw [Modifier.print, String.toList_append, List.append_assoc]
      exact (h.quoted name).keyword "map" (by decide +kernel) rfl
  | collate name =>
      rw [Modifier.print, String.toList_append, List.append_assoc]
      exact (h.quoted name).keyword "collate" (by decide +kernel) rfl
  | doc name =>
      rw [Modifier.print, String.toList_append, List.append_assoc]
      exact (h.quoted name).keyword "doc" (by decide +kernel) rfl
  | fk reference => exact reference.scans hp h he

theorem scans_modifiers {modifiers : List Modifier} (hp : ∀ m ∈ modifiers, m.Printable)
    (h : Scans rest tokens) (he : Ends rest) :
    Scans (modifiers.flatMap (fun m => " ".toList ++ m.print.toList) ++ rest)
        (modifiers.flatMap Modifier.tokens ++ tokens) ∧
      Ends (modifiers.flatMap (fun m => " ".toList ++ m.print.toList) ++ rest) := by
  induction modifiers with
  | nil => exact ⟨h, he⟩
  | cons modifier more ih =>
      obtain ⟨hmodifier, hmore⟩ := List.forall_mem_cons.mp hp
      obtain ⟨hs, hends⟩ := ih hmore
      simp only [List.flatMap_cons, List.append_assoc]
      exact ⟨(modifier.scans hmodifier hs hends).space, ends_space⟩

/-- What follows a name, which may be filled up with spaces. -/
theorem ends_gap (k : Nat) : Ends (List.replicate k ' ' ++ ' ' :: rest) := by
  cases k with
  | zero => exact ends_space
  | succ k => exact ends_space

theorem Property.Printable.scans {property : Property} (hp : property.Printable) (column : Nat)
    (h : Scans rest tokens) :
    Scans ((property.print column).toList ++ rest) (property.tokens ++ tokens) := by
  -- modifiers are written in an order of their own, but all of them
  have hordered : ∀ m ∈ ordered property.modifiers, m.Printable := fun m hm =>
    hp.modifiers m (List.mem_mergeSort.mp hm)
  obtain ⟨hmodifiers, hends⟩ := scans_modifiers hordered h.line (ends_cons (by decide +kernel))
  have htype := (hp.type.scans hmodifiers hends).space
  have hgap := htype.spaces (column - Text.width (printName property.name))
  have hname := hgap.name (ends_gap _).word property.name
  simp only [Property.print, Property.tokens, String.toList_append, String.toList_join,
    List.append_assoc, List.cons_append, String.toList_ofList, List.flatMap_map]
  exact hname.spaces 4

theorem scans_join {α : Type} {f : α → List Token} {g : α → String} {items : List α}
    (hitem : ∀ x ∈ items, ∀ {rest tokens}, Scans rest tokens →
      Scans ((g x).toList ++ rest) (f x ++ tokens)) (h : Scans rest tokens) :
    Scans ((String.join (items.map g)).toList ++ rest) (items.flatMap f ++ tokens) := by
  rw [String.toList_join, List.flatMap_map]
  induction items with
  | nil => exact h
  | cons x more ih =>
      have hmore := ih fun y hy => hitem y (List.mem_cons_of_mem _ hy)
      rw [List.flatMap_cons, List.flatMap_cons, List.append_assoc, List.append_assoc]
      exact hitem x List.mem_cons_self hmore

theorem Entity.Printable.scans {entity : Entity} (hp : entity.Printable) (h : Scans rest tokens) :
    Scans (entity.print.toList ++ rest) (entity.tokens ++ tokens) := by
  have hclose := h.line.char .rBrace rfl
  have hproperties := fun column => scans_join (g := Property.print column)
    (fun property hmem _ _ => (hp.properties property hmem).scans column) hclose
  have hhints := fun column => scans_join (fun hint hmem _ _ => (hp.hints hint hmem).scans)
    (hproperties column)
  -- the column where types begin depends on all names, and does not matter
  have hopen := fun column =>
    ((hhints column).line.char .lBrace rfl).space.name ends_space.word entity.name
  unfold Entity.print Entity.tokens
  simp only [String.toList_append, List.append_assoc, List.cons_append]
  exact (hopen _).keyword "entity" (by decide +kernel) rfl

/-- **Printing a document writes its tokens.** -/
theorem Document.scans {document : Document} (hp : ∀ e ∈ document.entities, e.Printable) :
    Scans document.print.toList (document.entities.flatMap Entity.tokens ++ [.eof]) := by
  -- an empty line stands before every entity but the first
  have hjoined : ∀ entities : List Entity, (∀ e ∈ entities, e.Printable) →
      Scans (entities.flatMap fun e => '\n' :: e.print.toList)
        (entities.flatMap Entity.tokens ++ [.eof]) := by
    intro entities hp
    induction entities with
    | nil => exact scans_nil
    | cons entity more ih =>
        obtain ⟨hentity, hmore⟩ := List.forall_mem_cons.mp hp
        rw [List.flatMap_cons, List.flatMap_cons, List.append_assoc, List.cons_append]
        exact (hentity.scans (ih hmore)).line
  unfold Document.print
  rw [String.toList_intercalate, List.map_map]
  cases hentities : document.entities with
  | nil => exact scans_nil
  | cons entity more =>
      rw [hentities] at hp
      obtain ⟨hentity, hmore⟩ := List.forall_mem_cons.mp hp
      rw [List.map_cons, intercalate_cons, List.flatMap_cons, List.append_assoc, List.flatMap_map]
      exact hentity.scans (hjoined more hmore)

end ErModel.Source
