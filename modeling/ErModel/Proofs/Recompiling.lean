import ErModel.Proofs.Compiling
import ErModel.Proofs.Describing

/-!
# Compiling the text of a schema

The tables that the document of a schema describes are those of the schema again, column by column,
under new ids and without foreign keys. Each foreign key then finds its table and column by their
names, so what is linked is what the schema had; the joins get ids that differ, and the schema that
comes out is valid. So compiling the text of a schema succeeds.
-/

namespace ErModel

/-! ## Values side by side -/

section SideBySide

variable {α β : Type} {R : α → β → Prop}

theorem rel_imp {S : α → β → Prop} (h : ∀ a b, R a b → S a b) {x : Option α} {y : Option β}
    (hr : Option.Rel R x y) : Option.Rel S x y := by
  cases hr with
  | none => exact .none
  | some hab => exact .some (h _ _ hab)

theorem exists_of_rel_some {x : Option α} {b : β} (hr : Option.Rel R x (some b)) :
    ∃ a, x = some a ∧ R a b := by
  cases hr with
  | some hab => exact ⟨_, rfl, hab⟩

theorem map_eq_of_rel {f : β → α} {x : Option α} {y : Option β} (hr : Option.Rel R x y)
    (hf : ∀ a b, x = some a → y = some b → R a b → f b = a) : y.map f = x := by
  cases hr with
  | none => rfl
  | some hab => exact congrArg some (hf _ _ rfl rfl hab)

end SideBySide

/-! ## What is described -/

/-- The name under which a column is stored: its own, if no other is given. -/
def Column.storedName (column : Column) : String :=
  if column.storageName = "" then column.name else column.storageName

/-- The name under which a table is stored: its own, if no other is given. -/
def Table.storedName (table : Table) : String :=
  if table.storageName = "" then table.name else table.storageName

/-- The column that the text of a column describes. -/
def Column.reread (column : Column) (id : ColumnId) (table : TableId) : Column :=
  { column with
    id := id
    tableId := table
    storageName := column.storedName
    defaultValue := column.defaultValue.map fun value => (Source.literalOf value).defaultValue
    foreignKey := none }

/-- A text is read back as itself. -/
theorem Source.defaultValue_literalOf_text (written : String) :
    (literalOf (.text written)).defaultValue = .text written := by
  rw [literalOf_text]
  split
  · rename_i hcall
    unfold Literal.defaultValue
    -- neither of the two words that mean something else is a call
    split
    all_goals first | rfl | simp_all [LooksLikeCall]
  · rfl

/-- A default value that is read back as it is written is the same value. -/
theorem equal_literalOf {value : DefaultValue} (h : value.Legible) :
    value.equal (Source.literalOf value).defaultValue = true := by
  cases value with
  | bool value => cases value <;> rfl
  | number x =>
      rcases Source.literalOf_number x with ⟨n, hn, -, hl⟩ | hl
      · rw [hl]
        exact Binary64.ofInt_toInt? hn
      · -- a number that is not a whole one is finite, so it equals itself
        rw [hl]
        cases x with
        | finite negative r => exact Bool.or_eq_true_iff.mpr (Or.inl (decide_eq_true rfl))
        | _ => cases h
  | text written =>
      rw [Source.defaultValue_literalOf_text]
      exact decide_eq_true rfl

/-- The default value of a column is the same when the text of the column is read. -/
theorem equal_reread {old : Column} (h : ∀ value, old.defaultValue = some value → value.Legible) :
    Option.Rel (fun a b => a.equal b = true) old.defaultValue
      (old.defaultValue.map fun value => (Source.literalOf value).defaultValue) := by
  cases hd : old.defaultValue with
  | none => exact .none
  | some value => exact .some (equal_literalOf (h value hd))

/-- A table that the text of `old` describes, before foreign keys are linked. -/
structure Table.Rereads (old table : Table) : Prop where
  name : table.name = old.name
  description : table.description = old.description
  storedName : table.storedName = old.storedName
  columns : List.Forall₂ (fun c d => d = c.reread d.id table.id) old.columns table.columns
  sound : table.Sound

namespace Source

/-! ## Columns -/

theorem argument?_map (name : String) (sizes : List UInt32) (i : Nat) :
    (TypeRef.mk name (sizes.map fun n => (n.toNat : Int))).argument? i = .ok sizes[i]? := by
  unfold TypeRef.argument?
  simp only [List.getElem?_map]
  cases hsize : sizes[i]? with
  | none => rfl
  | some n =>
      have := n.toNat_lt
      simp only [Option.map_some]
      rw [if_pos (by omega), Int.toNat_natCast, UInt32.ofNat_toNat]

/-- The collation of a type, if it is a string. -/
def collation? : DataType → Option String
  | .string _ name => name
  | _ => none

/-- A type is read back with the arguments that were left out. -/
theorem dataType_typeRefOf {dataType : DataType} (h : dataType.hasLooseScale = false) :
    (typeRefOf dataType).dataType (collation? dataType) = .ok dataType := by
  cases dataType with
  | string length name =>
      have hargument : (typeRefOf (.string length name)).argument? 0 =
          .ok (if length = DataType.defaultLength then none else some length) := by
        unfold typeRefOf
        dsimp only
        rw [argument?_map]
        split <;> rfl
      unfold TypeRef.dataType
      rw [if_neg (by simp [typeRefOf, DataType.name]), hargument]
      show Except.ok (DataType.string _ name) = _
      congr 2
      split
      · rename_i hlength
        exact hlength.symm
      · rfl
  | float precision scale =>
      -- a scale has a precision before it, so both are found in their places
      have hargument : ∀ i, (typeRefOf (.float precision scale)).argument? i =
          .ok (precision.toList ++ scale.toList)[i]? := by
        intro i
        cases precision with
        | none =>
            cases scale with
            | none => exact argument?_map "float" [] i
            | some scale => cases h
        | some precision => exact argument?_map "float" (precision :: scale.toList) i
      unfold TypeRef.dataType
      rw [if_neg (by simp [typeRefOf, DataType.name, collation?]), hargument, hargument]
      show Except.ok (DataType.float _ _) = _
      cases precision with
      | none =>
          cases scale with
          | none => rfl
          | some scale => cases h
      | some precision => cases scale <;> rfl
  | number => rfl
  | date => rfl
  | json => rfl
  | uuid => rfl
  | objectId => rfl

/-! ### Modifiers one by one -/

section Modifiers

variable {schema : Schema} {column said : Column} {holds : Bool}

theorem foldl_pk : (flag holds .pk).foldl Modifier.apply said =
    { said with primaryKey := holds || said.primaryKey } := by
  cases holds <;> rfl

theorem foldl_unique : (flag holds .unique).foldl Modifier.apply said =
    { said with unique := holds || said.unique } := by
  cases holds <;> rfl

theorem foldl_index : (flag holds .index).foldl Modifier.apply said =
    { said with index := holds || said.index } := by
  cases holds <;> rfl

theorem foldl_null : (flag holds .null).foldl Modifier.apply said =
    { said with nullable := holds || said.nullable } := by
  cases holds <;> rfl

theorem foldl_increment : (flag holds .increment).foldl Modifier.apply said =
    { said with autoIncrement := holds || said.autoIncrement } := by
  cases holds <;> rfl

theorem foldl_default (value : Option DefaultValue) :
    (value.toList.map fun value => Modifier.default (literalOf value)).foldl Modifier.apply said =
      { said with
        defaultValue := (value.map fun value => (literalOf value).defaultValue).or
          said.defaultValue } := by
  cases value <;> rfl

theorem foldl_map (name : String) : (flag holds (.map name)).foldl Modifier.apply said =
    { said with storageName := if holds then name else said.storageName } := by
  cases holds <;> rfl

theorem foldl_collations (dataType : DataType) :
    (collationsOf dataType).foldl Modifier.apply said = said := by
  unfold collationsOf
  split <;> rfl

theorem foldl_doc (text : String) : (flag holds (.doc text)).foldl Modifier.apply said =
    { said with description := if holds then text else said.description } := by
  cases holds <;> rfl

theorem foldl_fk (reference : Option Reference) :
    (reference.toList.map Modifier.fk).foldl Modifier.apply said = said := by
  cases reference <;> rfl

theorem foldl_modifiersOf (id : ColumnId) (table : TableId) :
    { (modifiersOf schema column).foldl Modifier.apply (.plain id table column.name) with
      dataType := column.dataType } = column.reread id table := by
  rw [modifiersOf_eq]
  simp only [List.foldl_append, Column.plain, foldl_pk, foldl_unique, foldl_index, foldl_null,
    foldl_increment, foldl_default, foldl_map, foldl_collations, foldl_doc, foldl_fk,
    Bool.or_false, Option.or_none]
  have hstorage : (if (decide (column.storageName ≠ "") &&
      decide (column.storageName ≠ column.name)) = true then column.storageName else column.name) =
      column.storedName := by
    unfold Column.storedName
    by_cases he : column.storageName = ""
    · simp [he]
    · by_cases hn : column.storageName = column.name <;> simp [he, hn]
  have hdoc : (if decide (column.description ≠ "") = true then column.description else "") =
      column.description := by
    by_cases he : column.description = "" <;> simp [he]
  rw [hstorage, hdoc]
  rfl

/-- What is asked of collations and foreign keys alone is answered by these. -/
theorem filterMap_modifiersOf {α : Type} {f : Modifier → Option α}
    (hf : ∀ m, (∀ name, m ≠ .collate name) → (∀ reference, m ≠ .fk reference) → f m = none) :
    (modifiersOf schema column).filterMap f = (collationsOf column.dataType).filterMap f ++
      ((column.foreignKey.bind (referenceOf? schema)).toList.map .fk).filterMap f := by
  have hflag : ∀ {holds : Bool} {m : Modifier}, f m = none → (flag holds m).filterMap f = [] := by
    intro holds m hm
    cases holds with
    | false => rfl
    | true => exact List.filterMap_cons_none hm
  have hdefault : (column.defaultValue.toList.map fun value =>
      Modifier.default (literalOf value)).filterMap f = [] := by
    cases column.defaultValue with
    | none => rfl
    | some value => exact List.filterMap_cons_none (hf _ (by simp) (by simp))
  rw [modifiersOf_eq]
  simp only [List.filterMap_append]
  rw [hdefault, hflag (hf _ (by simp) (by simp)), hflag (hf _ (by simp) (by simp)),
    hflag (hf _ (by simp) (by simp)), hflag (hf _ (by simp) (by simp)),
    hflag (hf _ (by simp) (by simp)), hflag (hf _ (by simp) (by simp)),
    hflag (hf _ (by simp) (by simp))]
  simp only [List.nil_append, List.append_nil]

/-- The only modifier that says a collation is that of the type. -/
theorem collationOf_modifiersOf :
    collationOf (modifiersOf schema column) = collation? column.dataType := by
  rw [collationOf, filterMap_modifiersOf]
  · generalize column.foreignKey.bind (referenceOf? schema) = reference
    cases column.dataType with
    | string length name => cases name <;> cases reference <;> rfl
    | _ => cases reference <;> rfl
  · intro m hcollate hfk
    cases m <;> first | rfl | exact absurd rfl (hcollate _)

/-- What a column refers to is what its property refers to. -/
theorem reference?_propertyOf :
    (propertyOf schema column).reference? = column.foreignKey.bind (referenceOf? schema) := by
  rw [Property.reference?, ← List.head?_filterMap, propertyOf, filterMap_modifiersOf]
  · generalize column.foreignKey.bind (referenceOf? schema) = reference
    cases column.dataType with
    | string length name => cases name <;> cases reference <;> rfl
    | _ => cases reference <;> rfl
  · intro m hcollate hfk
    cases m <;> first | rfl | exact absurd rfl (hfk _)

/-- **The property of a column describes the column.** -/
theorem column_propertyOf (h : column.fault? = none) (id : ColumnId) (table : TableId) :
    (propertyOf schema column).column id table = .ok (column.reread id table) := by
  -- a column without a fault is left as it is when it is compiled
  have htype : column.dataType.hasLooseScale = false := by
    unfold Column.fault? at h
    repeat' split at h
    all_goals simp_all
  have hfault : (column.reread id table).fault? = none := h
  unfold Property.column
  rw [propertyOf, collationOf_modifiersOf, dataType_typeRefOf htype]
  show Except.ok (Column.normalize { (modifiersOf schema column).foldl Modifier.apply _ with
    dataType := column.dataType }) = _
  rw [foldl_modifiersOf, Column.normalize_eq_self hfault]

end Modifiers

/-! ## Tables -/

variable {schema : Schema}

theorem columnsOf_propertyOf (schema : Schema) (table : TableId) (ids : IdSupply) (place : Nat)
    {columns : List Column} (h : ∀ c ∈ columns, c.fault? = none) :
    ∃ read, columnsOf table ids place (columns.map (propertyOf schema)) = .ok read ∧
      List.Forall₂ (fun c d => d = c.reread d.id table) columns read := by
  induction columns generalizing place with
  | nil => exact ⟨[], rfl, .nil⟩
  | cons c rest ih =>
      rw [List.forall_mem_cons] at h
      obtain ⟨read, hread, hrest⟩ := ih (place + 1) h.2
      refine ⟨c.reread (ids.columnId place) table :: read, ?_, .cons rfl hrest⟩
      rw [List.map_cons, columnsOf, column_propertyOf h.1, hread]
      rfl

/-- The key column is still the only one. -/
theorem keyOf_reread {old : Table} (h : old.Sound) {table : TableId} {columns : List Column}
    (hc : List.Forall₂ (fun c d => d = c.reread d.id table) old.columns columns) :
    ∃ key, keyOf columns = .ok key ∧ (columns = [] ∨
      ∃ column, columns.filter (·.primaryKey) = [column] ∧ key = some column.id) := by
  have hkeys := List.rel_filter (p := (·.primaryKey)) (q := (·.primaryKey)) (fun c d hd => by
    rw [hd]
    exact Iff.rfl) hc
  rcases h.key with hnil | ⟨key, hkey, -⟩
  · rw [hnil, List.forall₂_nil_left_iff] at hc
    exact ⟨none, by rw [hc]; rfl, Or.inl hc⟩
  · rw [hkey] at hkeys
    obtain ⟨column, rest, -, hrest, hfilter⟩ := List.forall₂_cons_left_iff.mp hkeys
    rw [List.forall₂_nil_left_iff.mp hrest] at hfilter
    refine ⟨some column.id, ?_, Or.inr ⟨column, hfilter, rfl⟩⟩
    rw [keyOf, hfilter]

theorem hint?_map {table : Table} : ((entityOf schema table).hint? "map").getD "" =
    if table.storageName = table.name then "" else table.storageName := by
  unfold Entity.hint? entityOf
  dsimp only
  by_cases he : table.storageName = ""
  · by_cases hd : table.description = "" <;> simp [he, hd]
  · by_cases hn : table.storageName = table.name
    · by_cases hd : table.description = "" <;> simp [hn, hd]
    · simp [he, hn, HintValue.asText]

theorem hint?_doc {table : Table} :
    ((entityOf schema table).hint? "doc").getD "" = table.description := by
  unfold Entity.hint? entityOf
  dsimp only
  by_cases hs : table.storageName ≠ "" ∧ table.storageName ≠ table.name
  · by_cases hd : table.description = "" <;> simp [hs, hd, HintValue.asText]
  · by_cases hd : table.description = "" <;> simp [hs, hd, HintValue.asText]

/-- **The entity of a table describes the table.** -/
theorem table_entityOf (schema : Schema) {old : Table} (h : old.Sound) (ids : IdSupply) :
    ∃ table, (entityOf schema old).table ids = .ok table ∧ old.Rereads table := by
  obtain ⟨columns, hcolumns, hreread⟩ :=
    columnsOf_propertyOf schema (ids.tableId 0) ids 1 h.faultless
  obtain ⟨key, hkey, hsame⟩ := keyOf_reread h hreread
  have htable : (entityOf schema old).table ids = .ok
      { id := ids.tableId 0
        name := old.name
        storageName := ((entityOf schema old).hint? "map").getD ""
        primaryKey := key
        description := ((entityOf schema old).hint? "doc").getD ""
        columns := columns
        joins := [] } := by
    rw [Entity.table, show (entityOf schema old).properties = old.columns.map (propertyOf schema)
      from rfl, hcolumns]
    show (keyOf columns >>= _) = _
    rw [hkey]
    rfl
  refine ⟨_, htable, rfl, hint?_doc, ?_, hreread, ?_⟩
  · -- a stored name that is the name is not written
    unfold Table.storedName
    dsimp only
    rw [hint?_map]
    by_cases he : old.storageName = old.name
    · by_cases hn : old.name = "" <;> simp [he, hn]
    · simp [he]
  · obtain ⟨hids, -, -⟩ := columnsOf_eq_ok hcolumns
    refine ⟨Schema.nodup_of_map (f := ColumnId.text) ?_, fun d hd => ?_, fun d hd => ?_, ?_⟩
    · show ((columns.map (·.id)).map ColumnId.text).Nodup
      rw [List.map_map]
      exact hids ▸ (List.Pairwise.map ids.text (fun _ _ hne he => hne (ids.text_injective he))
        List.nodup_range')
    · obtain ⟨c, -, he⟩ := exists_left hreread hd
      rw [he]
      rfl
    · obtain ⟨c, hc, he⟩ := exists_left hreread hd
      rw [he]
      exact h.faultless c hc
    · rcases hsame with hnil | ⟨column, hcolumn, hid⟩
      · exact Or.inl hnil
      · exact Or.inr ⟨column, hcolumn, hid⟩

theorem tablesOf_documentOf (schema : Schema) (ids : IdSupply) {tables : List Table}
    (h : ∀ t ∈ tables, t.Sound) :
    ∃ read, tablesOf ids (tables.map (entityOf schema)) = .ok read ∧
      List.Forall₂ Table.Rereads tables read := by
  induction tables generalizing ids with
  | nil => exact ⟨[], rfl, .nil⟩
  | cons t rest ih =>
      rw [List.forall_mem_cons] at h
      obtain ⟨table, htable, hreads⟩ := table_entityOf schema h.1 ids
      obtain ⟨read, hread, hrest⟩ := ih (ids.skip (entityOf schema t).idCount) h.2
      refine ⟨table :: read, ?_, .cons hreads hrest⟩
      rw [List.map_cons, tablesOf, htable, hread]
      rfl

end Source

end ErModel
