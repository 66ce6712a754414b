import ErModel.Proofs.Complete
import ErModel.Proofs.TextDefaults

/-!
# The text of what was compiled

What a source text compiles to has a text of its own, and that one is stable: compiling it gives
tables under new ids that have the same text. For the text of a schema says names where the schema
has ids, and all else in it is kept by compiling. Among the default values a negative zero loses its
sign, but it is written like the other zero.

A call is kept as the text that its tokens make when they are put together. If they do not come apart
again in the same way, because two numbers have become one or a quote is no longer escaped, the text
of the schema is not stable, or does not even compile.
-/

namespace ErModel

/-- Numbers that are equal by value are the same integer, if they are one. -/
theorem Binary64.toInt?_of_equal {x y : Binary64} (h : x.equal y = true) : x.toInt? = y.toInt? := by
  cases x with
  | nan => cases h
  | infinite s =>
      cases y with
      | infinite t =>
          simp only [equal, isZero, Bool.and_false, Bool.or_false, decide_eq_true_eq] at h
          rw [h]
      | _ => simp [equal, isZero] at h
  | finite s r =>
      cases y with
      | finite t q =>
          rcases Bool.or_eq_true_iff.mp h with h | h
          · rw [of_decide_eq_true h]
          · -- a zero is zero, whatever its sign
            simp only [isZero, Bool.and_eq_true, decide_eq_true_eq] at h
            simp [toInt?, h.1, h.2, units]
      | _ => simp [equal, isZero] at h

namespace Source

variable {schema parsed : Schema}

theorem literalOf_whole {x : Binary64} {n : Int} (hn : x.toInt? = some n)
    (hsmall : n.natAbs < wholeLimit) : literalOf (.number x) = .int n := by
  unfold literalOf
  dsimp only
  rw [hn]
  dsimp only
  rw [if_pos hsmall]

/-- A default value that was read is written as it stood in the text. -/
theorem literalOf_reread (value : DefaultValue) :
    literalOf (literalOf value).defaultValue = literalOf value := by
  cases value with
  | bool value => cases value <;> rfl
  | number x =>
      rcases literalOf_number x with ⟨n, hn, hsmall, hl⟩ | hl
      · have hsame : (Binary64.ofInt n).toInt? = some n :=
          (Binary64.toInt?_of_equal (Binary64.ofInt_toInt? hn)).symm.trans hn
        rw [hl, Literal.defaultValue, literalOf_whole hsame hsmall]
      · rw [hl, Literal.defaultValue, hl]
  | text written => rw [defaultValue_literalOf_text]

/-- A stored name is written unless it is the name. -/
theorem hints_entityOf (schema : Schema) (table : Table) : (entityOf schema table).hints =
    (if table.storedName = table.name then [] else [⟨"map", .str table.storedName⟩]) ++
      if table.description ≠ "" then [⟨"doc", .str table.description⟩] else [] := by
  unfold entityOf Table.storedName
  by_cases he : table.storageName = ""
  · simp [he]
  · by_cases hn : table.storageName = table.name <;> simp [he, hn]

/-- A join is written with the names of what it refers to, and those are the same. -/
theorem referenceOf?_restated (hv : schema.Valid) (hp : parsed.Valid) {join old : Join}
    {source : TableId} (hr : join.Restates old source schema.tables parsed.tables) :
    referenceOf? parsed join = referenceOf? schema old := by
  obtain ⟨oldPeer, oldKey, peer, key, hold, hnew, hpeer, hkey⟩ := hr.target
  have hoptions : optionsOf join = optionsOf old := by
    rw [hr.same]
    rfl
  rw [hp.referenceOf?_eq hnew, hv.referenceOf?_eq hold, hpeer, hkey, hoptions]

/-- **A column that was compiled is described like the column it was compiled from.** -/
theorem propertyOf_recompiled (hv : schema.Valid) (hp : parsed.Valid) {column old : Column}
    {table : TableId} (hr : column.Recompiled old table schema.tables parsed.tables) :
    propertyOf parsed column = propertyOf schema old := by
  have hreference : column.foreignKey.bind (referenceOf? parsed) =
      old.foreignKey.bind (referenceOf? schema) := by
    cases hf : column.foreignKey with
    | none =>
        have hrel := hf ▸ hr.foreignKey
        cases ho : old.foreignKey with
        | none => rfl
        | some join =>
            rw [ho] at hrel
            cases hrel
    | some join =>
        obtain ⟨oldJoin, ho, hrestates⟩ := exists_of_rel_some (hf ▸ hr.foreignKey)
        rw [ho]
        exact referenceOf?_restated hv hp hrestates
  have hdefault : column.defaultValue.toList.map (fun value => Modifier.default (literalOf value)) =
      old.defaultValue.toList.map fun value => Modifier.default (literalOf value) := by
    rw [hr.same]
    show ((old.defaultValue.map fun value => (literalOf value).defaultValue).toList.map
      fun value => Modifier.default (literalOf value)) = _
    cases old.defaultValue with
    | none => rfl
    | some value => exact congrArg (fun l => [Modifier.default l]) (literalOf_reread value)
  have hstored : flag (column.storageName ≠ "" && column.storageName ≠ column.name)
        (.map column.storageName) =
      flag (old.storageName ≠ "" && old.storageName ≠ old.name) (.map old.storageName) := by
    rw [hr.same]
    show flag (old.storedName ≠ "" && old.storedName ≠ old.name) (.map old.storedName) = _
    unfold Column.storedName
    by_cases he : old.storageName = ""
    · simp [he, flag]
    · simp [he]
  have hname : column.name = old.name := by
    rw [hr.same]
    rfl
  have htype : column.dataType = old.dataType := by
    rw [hr.same]
    rfl
  have hflags : column.primaryKey = old.primaryKey ∧ column.unique = old.unique ∧
      column.index = old.index ∧ column.nullable = old.nullable ∧
      column.autoIncrement = old.autoIncrement ∧ column.description = old.description := by
    rw [hr.same]
    exact ⟨rfl, rfl, rfl, rfl, rfl, rfl⟩
  obtain ⟨hkey, hunique, hindex, hnull, hincrement, hdoc⟩ := hflags
  unfold propertyOf
  rw [modifiersOf_eq, modifiersOf_eq, hreference, hdefault, hstored, hkey, hunique, hindex, hnull,
    hincrement, hdoc, hname, htype]

/-- A table that was compiled is described like the table it was compiled from. -/
theorem entityOf_recompiled (hv : schema.Valid) (hp : parsed.Valid) {table old : Table}
    (hr : table.Recompiled old schema.tables parsed.tables) :
    entityOf parsed table = entityOf schema old := by
  have hproperties : table.columns.map (propertyOf parsed) =
      old.columns.map (propertyOf schema) :=
    map_eq_of_forall₂ hr.columns fun _ _ hcd => propertyOf_recompiled hv hp hcd
  have hhints : (entityOf parsed table).hints = (entityOf schema old).hints := by
    rw [hints_entityOf, hints_entityOf, hr.storedName, hr.name, hr.description]
  have hentity : ∀ schema table, entityOf schema table =
      ⟨table.name, (entityOf schema table).hints, table.columns.map (propertyOf schema)⟩ :=
    fun _ _ => rfl
  rw [hentity parsed, hentity schema, hhints, hproperties, hr.name]

/-- **A schema that was compiled from the text of another has that text.** -/
theorem textOf_recompiled (hv : schema.Valid) (hp : parsed.Valid)
    (hr : parsed.Recompiled schema) : textOf parsed = textOf schema := by
  have hentities : parsed.tables.map (entityOf parsed) = schema.tables.map (entityOf schema) :=
    map_eq_of_forall₂ hr.tables fun _ _ htu => entityOf_recompiled hv hp htu
  unfold textOf documentOf
  rw [hentities]

/-- **What compiles has a stable text**, if its default values are read back as they are written. -/
theorem text_stable {source : String} {ids rest : IdSupply}
    (h : compile source ids = (.ok schema, rest))
    (hl : ∀ t ∈ schema.tables, ∀ c ∈ t.columns, ∀ value, c.defaultValue = some value →
      value.Legible) (newIds : IdSupply) :
    ∃ parsed rest', compile (textOf schema) newIds = (.ok parsed, rest') ∧
      textOf parsed = textOf schema := by
  have hcomplete := compile_complete h
  have hv := Schema.validate_iff.mp hcomplete.valid
  obtain ⟨parsed, rest', hcompile, hrecompiled⟩ :=
    compile_textOf hv ⟨hcomplete.columnNames, hl⟩ newIds
  obtain ⟨n, hcompiled⟩ := compile_compiled hcompile
  exact ⟨parsed, rest', hcompile, textOf_recompiled hv hcompiled.valid hrecompiled⟩

/-- Calls with arguments of every kind, and decimals that are written with fewer digits. -/
def slugsSource : String :=
  "entity User \x7b id uuid pk default uuid() \x7d
  entity Post \x7b id uuid pk slug string default lower(\"#, )\", -1.50 x)
    size float(6, 2) default 2.50 owner uuid fk -> User.id \x7d"

theorem slugs_stable : ∃ schema rest parsed rest',
    compile slugsSource ⟨"d", 0⟩ = (.ok schema, rest) ∧
    (∀ t ∈ schema.tables, ∀ c ∈ t.columns, ∀ value, c.defaultValue = some value →
      value.Legible) ∧
    compile (textOf schema) rest = (.ok parsed, rest') ∧ textOf parsed = textOf schema := by
  have hall : (compile slugsSource ⟨"d", 0⟩).1.toOption.map (fun schema => decide
      (∀ t ∈ schema.tables, ∀ c ∈ t.columns, ∀ value ∈ c.defaultValue, value.Legible)) =
      some true := by decide +kernel
  obtain ⟨schema, hschema, hlegible⟩ := Option.map_eq_some_iff.mp hall
  have hcompile : compile slugsSource ⟨"d", 0⟩ = (.ok schema, _) :=
    Prod.ext (ok_of_toOption hschema) rfl
  have hl := of_decide_eq_true hlegible
  obtain ⟨parsed, rest', hagain, htext⟩ := text_stable hcompile hl _
  exact ⟨schema, _, parsed, rest', hcompile, hl, hagain, htext⟩

/-- Two numbers beside each other are read as others, and a quote that is no longer escaped ends the
quoted text. -/
theorem calls_unstable :
    (∃ schema rest parsed rest',
      compile "entity T \x7b id string pk default f(1.5 2.5) \x7d" ⟨"d", 0⟩ = (.ok schema, rest) ∧
      compile (textOf schema) rest = (.ok parsed, rest') ∧ textOf parsed ≠ textOf schema) ∧
    (∃ schema rest,
      compile "entity T \x7b id string pk default f(\"a\\\"b\") \x7d" ⟨"d", 0⟩ =
        (.ok schema, rest) ∧
      (compile (textOf schema) rest).1.toOption = none) := by
  refine ⟨⟨.withKeyDefault ⟨"d000000000000"⟩ ⟨"d000000000001"⟩ "f(1.52.5)", .skip ⟨"d", 0⟩ 6,
    .withKeyDefault ⟨"d000000000006"⟩ ⟨"d000000000007"⟩ "f(1.525)",
      .skip (.skip ⟨"d", 0⟩ 6) 6, ?_, ?_, ?_⟩,
    ⟨.withKeyDefault ⟨"d000000000000"⟩ ⟨"d000000000001"⟩ "f(\"a\"b\")", .skip ⟨"d", 0⟩ 6,
      ?_, ?_⟩⟩
  · exact compile_of_toOption (by decide +kernel) (by decide +kernel)
  · rw [Schema.textOf_withKeyDefault _ _ (by decide)]
    exact compile_of_toOption (by decide +kernel) (by decide +kernel)
  · rw [Schema.textOf_withKeyDefault _ _ (by decide), Schema.textOf_withKeyDefault _ _ (by decide)]
    decide +kernel
  · exact compile_of_toOption (by decide +kernel) (by decide +kernel)
  · rw [Schema.textOf_withKeyDefault _ _ (by decide)]
    decide +kernel

end Source

end ErModel
