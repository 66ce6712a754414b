import ErModel.Proofs.Relinking

/-!
# Default values in the text of a schema

A text default is written between quotes, where nothing in it means anything, unless it has an
opening bracket and ends in a closing one: then it is taken for a call and stays bare. Calls of
words, numbers and quoted texts are read as themselves. If all that stays bare is, the text of the
schema compiles, and every column of the result has the name, the type, the flags and the default
value that it had. What only looks like a call may break the text of the schema, or come back as
another text.
-/

namespace ErModel

namespace Source

/-! ## Calls that stay bare -/

/-- An argument of a call that is read as it is written: a word, a number with its fraction if it is
no integer, or a quoted text in which nothing has to be escaped. -/
def Token.Plain : Token → Prop
  | .ident word => isWord word = true
  | .num n => Fits n
  | .decimal x => x.isFinite = true ∧ printDecimal x = Layout.plain.write x
  | .str text => Quoted.encode text = "\"" ++ text ++ "\""
  | _ => False

theorem Token.Plain.scans {token : Token} (hp : token.Plain) {rest : List Char}
    {tokens : List Token} (h : Scans rest tokens) (he : Ends rest) :
    Scans (token.inCall.toList ++ rest) (token :: tokens) := by
  cases token with
  | ident word => exact h.word word hp he.word
  | num n => exact h.int hp he
  | decimal x =>
      have hdecimal := h.decimal hp.1 he
      rwa [hp.2] at hdecimal
  | str text =>
      have hquoted := h.quoted text
      rwa [show Quoted.encode text = (Token.str text).inCall from hp] at hquoted
  | _ => exact hp.elim

theorem inside_separated {args : List Token} (ha : ∀ a ∈ args, a.Plain) :
    Inside (separated .comma (fun a => [a]) args) := by
  have hplain : ∀ a ∈ args, a ≠ .rParen ∧ a ≠ .eof := by
    intro a hmem
    constructor
    all_goals
      rintro rfl
      exact ha _ hmem
  cases args with
  | nil => exact fun _ h => nomatch h
  | cons first rest =>
      intro token hmem
      rcases List.mem_append.mp hmem with hmem | hmem
      · rw [List.mem_singleton.mp hmem]
        exact hplain first List.mem_cons_self
      · obtain ⟨a, ha, hmem⟩ := List.mem_flatMap.mp hmem
        rcases List.mem_cons.mp hmem with rfl | hmem
        · simp
        · rw [List.mem_singleton.mp hmem]
          exact hplain a (List.mem_cons_of_mem _ ha)

theorem toList_join_separated (args : List Token) :
    (String.join ((separated .comma (fun a => [a]) args).map Token.inCall)).toList =
      ", ".toList.intercalate (args.map (·.inCall.toList)) := by
  cases args with
  | nil => rfl
  | cons first rest =>
      rw [separated, List.map_cons, intercalate_cons, String.toList_join]
      simp [List.flatMap_map, List.flatMap_assoc, Token.inCall]

/-- **A call of plain arguments stays what it is.** -/
theorem staysBare_call {word : String} (hw : isWord word = true) {args : List Token}
    (ha : ∀ a ∈ args, a.Plain) :
    StaysBare (callText word (separated .comma (fun a => [a]) args)) := by
  have hclose : Scans [')'] [.rParen, .eof] := scans_nil.char .rParen rfl
  have hargs : Scans (", ".toList.intercalate (args.map (·.inCall.toList)) ++ [')'])
      (separated .comma (fun a => [a]) args ++ [.rParen, .eof]) := by
    refine hclose.separated (ends_cons (by decide +kernel)) Scans.comma (fun _ => ends_comma) ?_
    exact fun a hmem _ _ h he => (ha a hmem).scans h he
  have hcall := (hargs.char .lParen rfl).word word hw (ends_cons (by decide +kernel)).word
  rw [← toList_join_separated] at hcall
  have htext : Scans (callText word (separated .comma (fun a => [a]) args)).toList
      (.ident word :: .lParen :: (separated .comma (fun a => [a]) args ++ [.rParen, .eof])) := by
    simpa [callText] using hcall
  exact ⟨_, htext, reads_defaultValue_ident.mpr
    (Or.inr ⟨word, _, rfl, inside_separated ha, rfl⟩)⟩

end Source

/-! ## What the text of a schema keeps -/

/-- The column says the same of its values. Numbers are compared by value. -/
structure Column.SameValues (column old : Column) : Prop where
  name : column.name = old.name
  dataType : column.dataType = old.dataType
  primaryKey : column.primaryKey = old.primaryKey
  unique : column.unique = old.unique
  index : column.index = old.index
  nullable : column.nullable = old.nullable
  autoIncrement : column.autoIncrement = old.autoIncrement
  defaultValue : Option.Rel (fun a b => a.equal b = true) old.defaultValue column.defaultValue

/-- The table has the same name and the same columns, in their order. -/
structure Table.SameValues (table old : Table) : Prop where
  name : table.name = old.name
  columns : List.Forall₂ (fun c d => d.SameValues c) old.columns table.columns

theorem Column.Recompiled.sameValues {column old : Column} {table : TableId}
    {olds tables : List Table} (h : column.Recompiled old table olds tables)
    (hl : ∀ value, old.defaultValue = some value → value.Legible) : column.SameValues old := by
  have hdefault := equal_reread hl
  rw [h.same]
  exact ⟨rfl, rfl, rfl, rfl, rfl, rfl, rfl, hdefault⟩

namespace Schema

/-- **A schema whose default values are legible keeps them, and all else that its columns say of
their values, in its text.** -/
theorem text_keeps_defaults {schema : Schema} (hv : schema.validate = .ok ())
    (hl : schema.Legible) (ids : IdSupply) :
    ∃ text parsed rest, Source.textOfValid schema = .ok text ∧
      Source.compile text ids = (.ok parsed, rest) ∧
      List.Forall₂ (fun t u => u.SameValues t) schema.tables parsed.tables := by
  obtain ⟨parsed, rest, hcompile, hrecompiled⟩ :=
    Source.compile_textOf (validate_iff.mp hv) hl ids
  refine ⟨Source.textOf schema, parsed, rest, by rw [Source.textOfValid, hv], hcompile, ?_⟩
  refine forall₂_imp_mem hrecompiled.tables fun t ht u _ htu => ⟨htu.name, ?_⟩
  exact forall₂_imp_mem htu.columns fun c hc d _ hcd => hcd.sameValues (hl.defaults t ht c hc)

/-- One table, whose columns have these default values. The first of them is the key. -/
def withDefaults (key : DefaultValue) (others : List (String × DefaultValue)) : Schema :=
  let table := Table.seeded ⟨"t"⟩ ⟨"c"⟩ "T" .plainString
  ⟨[{ table with
      columns := table.columns.map (fun c => { c with defaultValue := some key }) ++
        others.map fun (name, value) =>
          { Column.plain ⟨name⟩ ⟨"t"⟩ name with defaultValue := some value } }]⟩

/-- Calls with and without arguments, a text that would close the entity if it had no quotes, and a
negative zero. -/
def readableDefaults : Schema :=
  withDefaults (.text "uuid()")
    [("slug", .text "lower(\"#, )\", -1.5)"), ("note", .text "f(x) \x7d # \""),
      ("price", .number (.zero true))]

theorem readableDefaults_kept : readableDefaults.validate = .ok () ∧ readableDefaults.Legible ∧
    ∃ text parsed rest, Source.textOfValid readableDefaults = .ok text ∧
      Source.compile text ⟨"d", 0⟩ = (.ok parsed, rest) ∧
      List.Forall₂ (fun t u => u.SameValues t) readableDefaults.tables parsed.tables := by
  have hvalidate : readableDefaults.validate = .ok () := ok_of_toOption (by decide +kernel)
  have hlegible : readableDefaults.Legible := by
    refine ⟨by decide +kernel, ?_⟩
    show ∀ t ∈ readableDefaults.tables, ∀ c ∈ t.columns, ∀ value ∈ c.defaultValue, value.Legible
    decide +kernel
  exact ⟨hvalidate, hlegible, text_keeps_defaults hvalidate hlegible ⟨"d", 0⟩⟩

/-- One table, with a key column that has this text as its default value. -/
def withKeyDefault (id : TableId) (key : ColumnId) (text : String) : Schema :=
  let table := Table.seeded id key "T" .plainString
  ⟨[{ table with
      columns := table.columns.map fun c => { c with defaultValue := some (.text text) } }]⟩

/-- The text of a table with one column, whose default value stays bare. -/
theorem textOf_withKeyDefault (id : TableId) (key : ColumnId) {text : String}
    (h : Source.LooksLikeCall text) : Source.textOf (withKeyDefault id key text) =
      "entity T \x7b\n    id string pk default " ++ text ++ "\n" ++ "\x7d\n" := by
  have hdocument : Source.documentOf (withKeyDefault id key text) = ⟨[⟨"T", [],
      [⟨"id", ⟨"string", []⟩, [.pk, .default (Source.literalOf (.text text))]⟩]⟩]⟩ := rfl
  have hordered : Source.ordered [.pk, .default (.ident text)] = [.pk, .default (.ident text)] :=
    List.mergeSort_of_pairwise (by simp [Source.Modifier.rank])
  have hnames : Source.printName "T" = "T" ∧ Source.printName "id" = "id" := by decide +kernel
  have hwidth : Text.width "id" = 2 := by decide +kernel
  rw [Source.textOf, hdocument, Source.literalOf_text, if_pos h]
  simp [Source.Document.print, Source.Entity.print, Source.Property.print, Source.TypeRef.print,
    Source.Modifier.print, Source.Literal.print, hordered, hnames, hwidth, ← String.append_assoc]

/-- A remark between brackets makes the text of a valid schema unreadable, and one behind a word
loses its space. -/
theorem remarks_lost :
    (withDefaults (.text "(x)") []).validate = .ok () ∧
    (Source.compile (Source.textOf (withDefaults (.text "(x)") [])) ⟨"d", 0⟩).1.toOption = none ∧
    (withDefaults (.text "price (EUR)") []).validate = .ok () ∧
    (Source.compile (Source.textOf (withDefaults (.text "price (EUR)") [])) ⟨"d", 0⟩).1.toOption.map
      (fun parsed => parsed.tables.flatMap fun t => t.columns.map (·.defaultValue)) =
        some [some (.text "price(EUR)")] := by
  rw [show withDefaults (.text "(x)") [] = withKeyDefault ⟨"t"⟩ ⟨"c"⟩ "(x)" from rfl,
    show withDefaults (.text "price (EUR)") [] = withKeyDefault ⟨"t"⟩ ⟨"c"⟩ "price (EUR)" from rfl,
    textOf_withKeyDefault _ _ (by decide), textOf_withKeyDefault _ _ (by decide)]
  refine ⟨ok_of_toOption ?_, ?_, ok_of_toOption ?_, ?_⟩
  all_goals decide +kernel

end Schema

end ErModel
