import ErModel.Proofs.Reparsing
import ErModel.Proofs.Validity
import ErModel.Source.Describe

/-!
# The text of a schema

The document that describes a schema can be printed, and its modifiers already stand in the order in
which they are written. So its text is read back as that very document. This takes what a valid
schema need not have: column names that differ within each table, default values that are finite,
and no text among them that is written as a call and would not be read back as that call.
-/

namespace ErModel

/-- A default value that is written as one token and read back as the same value. -/
def DefaultValue.Writable : DefaultValue → Prop
  | .bool _ => True
  | .number x => x.isFinite = true
  | .text written => ¬ (written.contains '(' = true ∧ written.endsWith ')' = true)

instance (value : DefaultValue) : Decidable value.Writable :=
  match value with
  | .bool _ => .isTrue trivial
  | .number x => inferInstanceAs (Decidable (x.isFinite = true))
  | .text _ => inferInstanceAs (Decidable (¬ _))

/-- There is an opening bracket in the text, and a closing one at its end. -/
def Source.LooksLikeCall (text : String) : Prop :=
  '(' ∈ text.toList ∧ text.toList.getLast? = some ')'

instance (text : String) : Decidable (Source.LooksLikeCall text) :=
  inferInstanceAs (Decidable (_ ∧ _))

theorem Source.looksLikeCall_iff {text : String} :
    (text.contains '(' && text.endsWith ')') = true ↔ LooksLikeCall text := by
  rw [String.contains_char_eq, String.endsWith_char_eq_getLast?]
  simp [LooksLikeCall]

/-- A default value that is read back as it is written: a text that looks like a call stays what it
is without quotes. -/
def DefaultValue.Legible : DefaultValue → Prop
  | .bool _ => True
  | .number x => x.isFinite = true
  | .text written => Source.LooksLikeCall written → Source.StaysBare written

instance (value : DefaultValue) : Decidable value.Legible :=
  match value with
  | .bool _ => .isTrue trivial
  | .number x => inferInstanceAs (Decidable (x.isFinite = true))
  | .text _ => inferInstanceAs (Decidable (_ → _))

theorem DefaultValue.Writable.legible {value : DefaultValue} (h : value.Writable) :
    value.Legible := by
  cases value with
  | bool => trivial
  | number => exact h
  | text written => exact fun hcall => absurd (by simpa using Source.looksLikeCall_iff.mpr hcall) h

/-- What a schema needs beside its validity for its text to be read back. -/
structure Schema.Legible (schema : Schema) : Prop where
  columnNames : ∀ t ∈ schema.tables, (t.columns.map (·.name)).Nodup
  defaults : ∀ t ∈ schema.tables, ∀ c ∈ t.columns, ∀ value, c.defaultValue = some value →
    value.Legible

/-- What a schema needs beside its validity for its text to say all of it. -/
structure Schema.Writable (schema : Schema) : Prop where
  columnNames : ∀ t ∈ schema.tables, (t.columns.map (·.name)).Nodup
  targets : ∀ o ∈ schema.owningJoins, o.join.target.isSome = true
  plain : ∀ t ∈ schema.tables, ∀ c ∈ t.columns, ∀ join, c.foreignKey = some join →
    join.joinColumn = none ∧ join.inverseColumn = none
  defaults : ∀ t ∈ schema.tables, ∀ c ∈ t.columns, ∀ value, c.defaultValue = some value →
    value.Writable

theorem Schema.Writable.legible {schema : Schema} (h : schema.Writable) : schema.Legible :=
  ⟨h.columnNames, fun t ht c hc value hv => (h.defaults t ht c hc value hv).legible⟩

namespace Source

/-! ## Everything in the document can be printed -/

theorem printable_typeRefOf (dataType : DataType) : (typeRefOf dataType).Printable := by
  refine ⟨?_, ?_⟩
  · show isWord dataType.name = true
    have hnames : ∀ name ∈ ["string", "number", "date", "json", "float", "uuid", "objectId"],
        isWord name = true := by decide +kernel
    exact hnames _ (by cases dataType <;> simp [DataType.name])
  · intro n hn
    obtain ⟨size, -, rfl⟩ := List.mem_map.mp hn
    have := size.toNat_lt
    constructor <;> omega

theorem literalOf_number (x : Binary64) :
    (∃ n, x.toInt? = some n ∧ n.natAbs < wholeLimit ∧ literalOf (.number x) = .int n) ∨
      literalOf (.number x) = .decimal x := by
  unfold literalOf
  dsimp only
  split
  · rename_i n hn
    split
    · rename_i hsmall
      exact Or.inl ⟨n, hn, hsmall, rfl⟩
    · exact Or.inr rfl
  · exact Or.inr rfl

theorem literalOf_text (written : String) :
    literalOf (.text written) = if LooksLikeCall written then .ident written else .str written :=
  if_congr looksLikeCall_iff rfl rfl

theorem printable_literalOf {value : DefaultValue} (h : value.Legible) :
    (literalOf value).Printable := by
  cases value with
  | bool value =>
      have hwords : ∀ word ∈ ["true", "false"], isWord word = true := by decide +kernel
      cases value <;> exact staysBare_word (hwords _ (by simp))
  | number x =>
      rcases literalOf_number x with ⟨n, -, hsmall, hl⟩ | hl
      · have : n.natAbs < 10 ^ 15 := hsmall
        rw [hl]
        constructor <;> omega
      · rw [hl]
        exact h
  | text written =>
      rw [literalOf_text]
      split
      · rename_i hcall
        exact h hcall
      · trivial

/-- The options of a foreign key as they are written. -/
def optionsOf (join : Join) : List ReferenceOption :=
  .kind (kindWord join.kind) ::
    (if join.onDelete = .cascade then [] else [.onDelete (actionWord join.onDelete)]) ++
    (if join.onUpdate = .cascade then [] else [.onUpdate (actionWord join.onUpdate)]) ++
    join.through.toList.map .through

theorem referenceOf?_eq_some {schema : Schema} {join : Join} {reference : Reference} :
    referenceOf? schema join = some reference ↔ ∃ target table id column,
      join.target = some target ∧ schema.table? target.table = some table ∧
      target.column = some id ∧ table.column? id = some column ∧
      reference = ⟨table.name, column.name, optionsOf join⟩ := by
  constructor
  · intro h
    obtain ⟨target, htarget, h⟩ := Option.bind_eq_some_iff.mp h
    obtain ⟨table, htable, h⟩ := Option.bind_eq_some_iff.mp h
    obtain ⟨id, hid, h⟩ := Option.bind_eq_some_iff.mp h
    obtain ⟨column, hcolumn, h⟩ := Option.bind_eq_some_iff.mp h
    exact ⟨target, table, id, column, htarget, htable, hid, hcolumn, (Option.some.inj h).symm⟩
  · rintro ⟨target, table, id, column, htarget, htable, hid, hcolumn, rfl⟩
    refine Option.bind_eq_some_iff.mpr ⟨target, htarget, ?_⟩
    refine Option.bind_eq_some_iff.mpr ⟨table, htable, ?_⟩
    refine Option.bind_eq_some_iff.mpr ⟨id, hid, ?_⟩
    exact Option.bind_eq_some_iff.mpr ⟨column, hcolumn, rfl⟩

theorem printable_optionsOf (join : Join) : ∀ o ∈ optionsOf join, o.Printable := by
  have hkind : isWord (kindWord join.kind) = true := by cases join.kind <;> decide +kernel
  have haction : ∀ action, isWord (actionWord action) = true := by
    intro action
    cases action <;> decide +kernel
  intro option ho
  rw [optionsOf, List.mem_append, List.mem_append, List.mem_cons] at ho
  rcases ho with ((rfl | ho) | ho) | ho
  · exact hkind
  · split at ho
    · cases ho
    · rw [List.mem_singleton.mp ho]
      exact haction _
  · split at ho
    · cases ho
    · rw [List.mem_singleton.mp ho]
      exact haction _
  · obtain ⟨name, -, rfl⟩ := List.mem_map.mp ho
    trivial

/-- The collation of a type as it is written. -/
def collationsOf : DataType → List Modifier
  | .string _ (some name) => [.collate name]
  | _ => []

theorem modifiersOf_eq (schema : Schema) (column : Column) :
    modifiersOf schema column =
      flag column.primaryKey .pk ++ flag column.unique .unique ++ flag column.index .index ++
      flag column.nullable .null ++ flag column.autoIncrement .increment ++
      column.defaultValue.toList.map (fun value => .default (literalOf value)) ++
      flag (column.storageName ≠ "" && column.storageName ≠ column.name) (.map column.storageName) ++
      collationsOf column.dataType ++
      flag (column.description ≠ "") (.doc column.description) ++
      (column.foreignKey.bind (referenceOf? schema)).toList.map .fk := by
  unfold modifiersOf collationsOf
  rfl

theorem flag_sublist (holds : Bool) (modifier : Modifier) :
    (flag holds modifier).Sublist [modifier] := by
  cases holds with
  | false => exact List.nil_sublist _
  | true => exact List.Sublist.refl _

theorem toList_sublist {α : Type} (x : Option α) (f : α → Modifier) {k : Nat}
    (hf : ∀ a, (f a).rank = k) : ((x.toList.map f).map Modifier.rank).Sublist [k] := by
  cases x with
  | none => exact List.nil_sublist _
  | some a =>
      show [(f a).rank].Sublist [k]
      exact hf a ▸ List.Sublist.refl _

/-- The modifiers of a column already stand in the order in which they are written. -/
theorem ordered_modifiersOf (schema : Schema) (column : Column) :
    ordered (modifiersOf schema column) = modifiersOf schema column := by
  have hcollation : ((collationsOf column.dataType).map Modifier.rank).Sublist [7] := by
    unfold collationsOf
    split
    · exact List.Sublist.refl _
    · exact List.nil_sublist _
  have hranks : ((modifiersOf schema column).map Modifier.rank).Sublist
      ([0] ++ [1] ++ [2] ++ [3] ++ [4] ++ [5] ++ [6] ++ [7] ++ [8] ++ [9]) := by
    rw [modifiersOf_eq]
    simp only [List.map_append]
    refine List.Sublist.append (List.Sublist.append (List.Sublist.append (List.Sublist.append
      (List.Sublist.append (List.Sublist.append (List.Sublist.append (List.Sublist.append
        (List.Sublist.append ?_ ?_) ?_) ?_) ?_) ?_) ?_) hcollation) ?_) ?_
    all_goals first
      | exact (flag_sublist _ _).map Modifier.rank
      | exact toList_sublist _ _ fun _ => rfl
  -- each rank comes once at most, so sorting by rank changes nothing
  have hpairwise : ((modifiersOf schema column).map Modifier.rank).Pairwise (· ≤ ·) :=
    List.Pairwise.sublist hranks (by decide)
  refine List.mergeSort_of_pairwise ?_
  exact (List.pairwise_map.mp hpairwise).imp fun h => by simpa using h

theorem forall_mem_flag {P : Modifier → Prop} {holds : Bool} {modifier : Modifier}
    (h : P modifier) : ∀ m ∈ flag holds modifier, P m := by
  intro m hm
  rwa [List.mem_singleton.mp ((flag_sublist holds modifier).subset hm)]

theorem printable_modifiersOf {schema : Schema} {column : Column}
    (h : ∀ value, column.defaultValue = some value → value.Legible) :
    ∀ m ∈ modifiersOf schema column, m.Printable := by
  rw [modifiersOf_eq]
  simp only [List.forall_mem_append]
  refine ⟨⟨⟨⟨⟨⟨⟨⟨⟨?_, ?_⟩, ?_⟩, ?_⟩, ?_⟩, ?_⟩, ?_⟩, ?_⟩, ?_⟩, ?_⟩
  all_goals try exact forall_mem_flag trivial
  · intro m hm
    obtain ⟨value, hvalue, rfl⟩ := List.mem_map.mp hm
    exact printable_literalOf (h value (Option.mem_toList.mp hvalue))
  · intro m hm
    unfold collationsOf at hm
    split at hm
    · rw [List.mem_singleton.mp hm]
      trivial
    · cases hm
  · intro m hm
    obtain ⟨reference, hreference, rfl⟩ := List.mem_map.mp hm
    obtain ⟨join, -, hjoin⟩ := Option.bind_eq_some_iff.mp (Option.mem_toList.mp hreference)
    obtain ⟨_, _, _, _, -, -, -, -, rfl⟩ := referenceOf?_eq_some.mp hjoin
    exact printable_optionsOf join

theorem printable_entityOf {schema : Schema} (hl : schema.Legible) {table : Table}
    (ht : table ∈ schema.tables) : (entityOf schema table).Printable := by
  refine ⟨?_, ?_⟩
  · have hkeys : ∀ key ∈ ["map", "doc"], ∀ word ∈ keyWords key, isWord word = true := by
      decide +kernel
    intro hint hh
    rcases List.mem_append.mp hh with hh | hh
    · split at hh
      · rw [List.mem_singleton.mp hh]
        exact ⟨hkeys "map" (by simp), trivial⟩
      · cases hh
    · split at hh
      · rw [List.mem_singleton.mp hh]
        exact ⟨hkeys "doc" (by simp), trivial⟩
      · cases hh
  · intro property hp
    obtain ⟨column, hc, rfl⟩ := List.mem_map.mp hp
    exact ⟨printable_typeRefOf _, printable_modifiersOf (hl.defaults table ht column hc)⟩

theorem distinct_documentOf {schema : Schema} (hv : schema.Valid) (hl : schema.Legible) :
    (documentOf schema).Distinct := by
  refine ⟨?_, ?_⟩
  · rw [documentOf, List.map_map]
    exact hv.names
  · intro e he
    obtain ⟨table, ht, rfl⟩ := List.mem_map.mp he
    rw [entityOf, List.map_map]
    exact hl.columnNames table ht

theorem canonical_documentOf (schema : Schema) :
    (documentOf schema).canonical = documentOf schema := by
  have hproperty : ∀ column, (propertyOf schema column).canonical = propertyOf schema column :=
    fun column => congrArg (Property.mk _ _) (ordered_modifiersOf schema column)
  have hentity : ∀ table, (entityOf schema table).canonical = entityOf schema table := by
    intro table
    refine congrArg (Entity.mk _ _) ?_
    rw [entityOf, List.map_map]
    exact List.map_congr_left fun column _ => hproperty column
  rw [documentOf, Document.canonical, List.map_map]
  exact congrArg _ (List.map_congr_left fun table _ => hentity table)

/-- **The text of a schema is read back as the document that describes it.** -/
theorem readDocument_textOf {schema : Schema} (hv : schema.Valid) (hl : schema.Legible) :
    readDocument (textOf schema) = .ok (documentOf schema) := by
  have hprintable : ∀ e ∈ (documentOf schema).entities, e.Printable := by
    intro e he
    obtain ⟨table, ht, rfl⟩ := List.mem_map.mp he
    exact printable_entityOf hl ht
  rw [readDocument, textOf, parse_print hprintable (distinct_documentOf hv hl),
    canonical_documentOf]

end Source

end ErModel
