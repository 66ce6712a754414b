import ErModel.Proofs.Content
import ErModel.Proofs.JoinViews
import ErModel.Proofs.LooseMirrors

/-!
# The invariants as they are declared

`Schema.validate` goes through a schema in a fixed order: table by table, then owning record by owning
record, then mirror by mirror. It remembers the keys that it has met, and stops at the first fault. The
order decides which fault is told, and nothing else. What is accepted can be declared without an order,
a search or a check: here every invariant speaks of what is in the schema and of what differs in it. So
a schema may be reordered at will, its tables as well as the columns and the joins of each.
-/

namespace ErModel

/-- The flags and the type of a column can hold together. -/
structure Column.Lawful (column : Column) : Prop where
  autoIncrement : column.autoIncrement = true →
    column.primaryKey = true ∧ column.dataType = .number
  unique : ¬ (column.unique = true ∧ column.nullable = true)
  key : ¬ (column.primaryKey = true ∧ column.nullable = true)
  scale : ∀ scale, column.dataType ≠ .float none (some scale)

/-- What is declared of a table on its own. -/
structure Table.Lawful (table : Table) : Prop where
  columnIds : (table.columns.map (·.id)).Nodup
  home : ∀ c ∈ table.columns, c.tableId = table.id
  columns : ∀ c ∈ table.columns, c.Lawful
  /-- A table with columns has one key column, and knows it. -/
  key : table.columns ≠ [] → ∃ key ∈ table.columns, table.primaryKey = some key.id ∧
    ∀ c ∈ table.columns, c.primaryKey = true ↔ c = key

/-- What is declared of a schema. -/
structure Schema.Lawful (schema : Schema) : Prop where
  tableIds : (schema.tables.map (·.id)).Nodup
  tableNames : (schema.tables.map (·.name)).Nodup
  tables : ∀ t ∈ schema.tables, t.Lawful
  ownerIds : (schema.owners.map (·.2.id)).Nodup
  sources : ∀ o ∈ schema.owners, o.2.source = o.1
  targets : ∀ o ∈ schema.owners, ∀ target, o.2.target = some target → schema.Offers target
  foreignKeys : ∀ t ∈ schema.tables, ∀ c ∈ t.columns, ∀ join, c.foreignKey = some join →
    (∃ target column, join.target = some target ∧ target.column = some column) ∧
      join.kind ≠ .manyToMany
  mirrorIds : (schema.mirrorRecords.map (·.2.id)).Nodup
  mirrors : ∀ m ∈ schema.mirrorRecords, ∃ o ∈ schema.owners, o.2.id = m.2.id ∧
    o.2.source = m.2.source ∧ o.2.kind = m.2.kind ∧ o.2.onDelete = m.2.onDelete ∧
    o.2.onUpdate = m.2.onUpdate ∧ o.2.through = m.2.through

/-! ## What is declared is what is valid -/

namespace DataType

theorem isNumber_iff {type : DataType} : type.isNumber = true ↔ type = .number := by
  cases type <;> simp [isNumber]

theorem hasLooseScale_iff {type : DataType} :
    type.hasLooseScale = false ↔ ∀ scale, type ≠ .float none (some scale) := by
  cases type with
  | float precision scale => cases precision <;> cases scale <;> simp [hasLooseScale]
  | _ => simp [hasLooseScale]

end DataType

theorem Column.lawful_iff {column : Column} : column.Lawful ↔ column.fault? = none := by
  rw [fault?_eq_none, DataType.isNumber_iff, DataType.hasLooseScale_iff]
  constructor
  · intro h
    refine ⟨h.autoIncrement, fun hnull => ⟨?_, ?_⟩, h.scale⟩
    · exact eq_false_of_ne_true fun hunique => h.unique ⟨hunique, hnull⟩
    · exact eq_false_of_ne_true fun hkey => h.key ⟨hkey, hnull⟩
  · rintro ⟨hauto, hnull, hscale⟩
    refine ⟨hauto, fun h => ?_, fun h => ?_, hscale⟩
    · exact absurd h.1 (ne_true_of_eq_false (hnull h.2).1)
    · exact absurd h.1 (ne_true_of_eq_false (hnull h.2).2)

namespace Table

variable {table : Table}

/-- Where ids differ, the key columns are one just if it is the only one. -/
theorem filter_primaryKey_iff (hn : (table.columns.map (·.id)).Nodup) {key : Column} :
    table.columns.filter (·.primaryKey) = [key] ↔
      key ∈ table.columns ∧ ∀ c ∈ table.columns, c.primaryKey = true ↔ c = key := by
  constructor
  · intro h
    have hmem : ∀ c, (c ∈ table.columns ∧ c.primaryKey = true) ↔ c = key := by
      intro c
      rw [← List.mem_filter, h, List.mem_singleton]
    exact ⟨((hmem key).mpr rfl).1, fun c hc =>
      ⟨fun hkey => (hmem c).mp ⟨hc, hkey⟩, fun he => ((hmem c).mpr he).2⟩⟩
  · rintro ⟨hmem, honly⟩
    rw [← filter_key hn hmem]
    refine List.filter_congr fun c hc => ?_
    rw [Bool.eq_iff_iff, honly c hc, decide_eq_true_eq]
    exact ⟨congrArg _, eq_of_key_eq hn hc hmem⟩

theorem lawful_iff : table.Lawful ↔ table.Sound := by
  constructor
  · intro h
    refine ⟨h.columnIds, h.home, fun c hc => Column.lawful_iff.mp (h.columns c hc), ?_⟩
    by_cases hnone : table.columns = []
    · exact Or.inl hnone
    · obtain ⟨key, hmem, hknown, honly⟩ := h.key hnone
      exact Or.inr ⟨key, (filter_primaryKey_iff h.columnIds).mpr ⟨hmem, honly⟩, hknown⟩
  · intro h
    refine ⟨h.columnIds, h.home, fun c hc => Column.lawful_iff.mpr (h.faultless c hc), ?_⟩
    intro hsome
    obtain ⟨key, hkey, hknown⟩ := h.key.resolve_left hsome
    obtain ⟨hmem, honly⟩ := (filter_primaryKey_iff h.columnIds).mp hkey
    exact ⟨key, hmem, hknown, honly⟩

end Table

namespace Join

theorem fitsForeignKey_iff {join : Join} : join.fitsForeignKey = true ↔
    (∃ target column, join.target = some target ∧ target.column = some column) ∧
      join.kind ≠ .manyToMany := by
  simp only [fitsForeignKey, Bool.and_eq_true, Option.any_eq_true, Option.isSome_iff_exists,
    decide_eq_true_eq]
  refine and_congr_left fun _ => ⟨?_, ?_⟩
  · rintro ⟨target, htarget, column, hcolumn⟩
    exact ⟨target, column, htarget, hcolumn⟩
  · rintro ⟨target, column, htarget, hcolumn⟩
    exact ⟨target, htarget, column, hcolumn⟩

end Join

namespace Schema

variable {schema next : Schema}

theorem Lawful.mirrorsAgree (h : schema.Lawful) : schema.MirrorsAgree where
  ids := h.mirrorIds
  owned m hm := by
    obtain ⟨o, ho, hsame⟩ := h.mirrors m hm
    exact ⟨o, ho, Join.mirror_eq_iff.mpr hsame⟩

theorem Lawful.valid (h : schema.Lawful) : schema.Valid := by
  obtain ⟨hmirrorIds, hmirrors⟩ := mirrorsAgree_iff.mp h.mirrorsAgree
  refine ⟨h.tableIds, h.tableNames, fun t ht => Table.lawful_iff.mp (h.tables t ht),
    ownerIds_eq schema ▸ h.ownerIds, fun o ho => ?_, hmirrorIds, hmirrors⟩
  have howner : (o.holder.id, o.join) ∈ schema.owners :=
    owners_eq schema ▸ List.mem_map.mpr ⟨o, ho, rfl⟩
  refine ⟨h.sources _ howner, (hasTarget_iff h.tableIds).mpr (h.targets _ howner), ?_⟩
  intro hconfigured
  obtain ⟨ht, ⟨c, hc, -, hf⟩ | ⟨hpending, -⟩⟩ := mem_owningJoins ho
  · exact Join.fitsForeignKey_iff.mpr (h.foreignKeys _ ht c hc _ hf)
  · rw [OwnedJoin.isConfigured, hpending] at hconfigured
    cases hconfigured

theorem Valid.lawful (hv : schema.Valid) : schema.Lawful := by
  have hagree := mirrorsAgree_iff.mpr ⟨hv.mirrorIds, hv.mirrors⟩
  refine ⟨hv.ids, hv.names, fun t ht => Table.lawful_iff.mpr (hv.tables t ht),
    ownerIds_eq schema ▸ hv.ownerIds, fun o ho => ?_, fun o ho => ?_, fun t ht c hc join hf => ?_,
    hagree.ids, fun m hm => ?_⟩
  · obtain ⟨owned, howned, rfl⟩ := exists_owned ho
    exact (hv.owners owned howned).source
  · obtain ⟨owned, howned, rfl⟩ := exists_owned ho
    exact (hasTarget_iff hv.ids).mp (hv.owners owned howned).target
  · have howned := hv.owners _ (mem_owningJoins_of_column ht hc hf)
    exact Join.fitsForeignKey_iff.mp (howned.fits rfl)
  · obtain ⟨o, ho, hsame⟩ := hagree.owned m hm
    exact ⟨o, ho, Join.mirror_eq_iff.mp hsame⟩

end Schema

/-! ## Another order -/

/-- A table without the order of its columns and of its joins. -/
def Table.unordered (table : Table) : Table × Multiset Column × Multiset Join :=
  ({ table with columns := [], joins := [] }, table.columns, table.joins)

/-- A schema without the order of its tables, and of the columns and joins of each. -/
def Schema.unordered (schema : Schema) : Multiset (Table × Multiset Column × Multiset Join) :=
  schema.tables.map Table.unordered

namespace Table

variable {t u : Table}

theorem columns_perm (h : t.unordered = u.unordered) : t.columns.Perm u.columns :=
  Multiset.coe_eq_coe.mp (congrArg (·.2.1) h)

theorem joins_perm (h : t.unordered = u.unordered) : t.joins.Perm u.joins :=
  Multiset.coe_eq_coe.mp (congrArg (·.2.2) h)

theorem id_of_unordered (h : t.unordered = u.unordered) : t.id = u.id := by
  have hid := congrArg (·.1.id) h
  exact hid

theorem owners_perm (h : t.unordered = u.unordered) : t.owners.Perm u.owners := by
  rw [owners, owners, pendingJoins, pendingJoins, id_of_unordered h]
  exact ((columns_perm h).filterMap _).append ((joins_perm h).filter _)

theorem mirrors_perm (h : t.unordered = u.unordered) : t.mirrors.Perm u.mirrors := by
  rw [mirrors, mirrors, id_of_unordered h]
  exact (joins_perm h).filter _

theorem Lawful.of_unordered (hl : t.Lawful) (h : t.unordered = u.unordered) : u.Lawful := by
  have hcolumns := columns_perm h
  have hknown : t.primaryKey = u.primaryKey := by
    have hkey := congrArg (·.1.primaryKey) h
    exact hkey
  refine ⟨(hcolumns.map _).nodup_iff.mp hl.columnIds, fun c hc => ?_, fun c hc => ?_, fun hsome => ?_⟩
  · exact (hl.home c (hcolumns.mem_iff.mpr hc)).trans (id_of_unordered h)
  · exact hl.columns c (hcolumns.mem_iff.mpr hc)
  · obtain ⟨key, hmem, hprimary, honly⟩ := hl.key fun hnone => hsome (hnone ▸ hcolumns).nil_eq.symm
    exact ⟨key, hcolumns.mem_iff.mp hmem, hknown ▸ hprimary,
      fun c hc => honly c (hcolumns.mem_iff.mpr hc)⟩

end Table

namespace Schema

variable {schema next : Schema}

theorem tables_perm (h : schema.unordered = next.unordered) :
    (schema.tables.map Table.unordered).Perm (next.tables.map Table.unordered) :=
  Multiset.coe_eq_coe.mp h

/-- What tables contribute to a list is the same but for its order. -/
theorem collect_unordered {α : Type} {f : Table → List α}
    (hf : ∀ t u, t.unordered = u.unordered → (f t).Perm (f u))
    (h : schema.unordered = next.unordered) : (schema.collect f).Perm (next.collect f) :=
  perm_flatMap_of_keys hf (tables_perm h)

theorem mem_of_unordered (h : schema.unordered = next.unordered) {t : Table}
    (ht : t ∈ schema.tables) : ∃ u ∈ next.tables, u.unordered = t.unordered :=
  List.mem_map.mp ((tables_perm h).subset (List.mem_map.mpr ⟨t, ht, rfl⟩))

theorem Offers.of_unordered {target : JoinTarget} (ho : schema.Offers target)
    (h : schema.unordered = next.unordered) : next.Offers target := by
  obtain ⟨t, ht, hid, hcolumn⟩ := ho
  obtain ⟨u, hu, he⟩ := mem_of_unordered h ht
  exact ⟨u, hu, (Table.id_of_unordered he).trans hid, fun column hc =>
    ((Table.columns_perm he).map _).mem_iff.mpr (hcolumn column hc)⟩

/-- **No declared invariant sees an order.** -/
theorem Lawful.of_unordered (hl : schema.Lawful) (h : schema.unordered = next.unordered) :
    next.Lawful := by
  have hids : (schema.tables.map (·.id)).Perm (next.tables.map (·.id)) := by
    have := (tables_perm h).map fun key => key.1.id
    rwa [List.map_map, List.map_map] at this
  have hnames : (schema.tables.map (·.name)).Perm (next.tables.map (·.name)) := by
    have := (tables_perm h).map fun key => key.1.name
    rwa [List.map_map, List.map_map] at this
  have howners : schema.owners.Perm next.owners := collect_unordered (fun t u he => by
    rw [Table.id_of_unordered he]
    exact (Table.owners_perm he).map _) h
  have hmirrors : schema.mirrorRecords.Perm next.mirrorRecords := collect_unordered (fun t u he => by
    rw [Table.id_of_unordered he]
    exact (Table.mirrors_perm he).map _) h
  refine ⟨hids.nodup_iff.mp hl.tableIds, hnames.nodup_iff.mp hl.tableNames, fun u hu => ?_,
    (howners.map _).nodup_iff.mp hl.ownerIds, fun o ho => hl.sources o (howners.mem_iff.mpr ho),
    fun o ho target htarget => ?_, fun u hu c hc => ?_, (hmirrors.map _).nodup_iff.mp hl.mirrorIds,
    fun m hm => ?_⟩
  · obtain ⟨t, ht, he⟩ := mem_of_unordered h.symm hu
    exact (hl.tables t ht).of_unordered he
  · exact (hl.targets o (howners.mem_iff.mpr ho) target htarget).of_unordered h
  · obtain ⟨t, ht, he⟩ := mem_of_unordered h.symm hu
    exact hl.foreignKeys t ht c ((Table.columns_perm he).mem_iff.mpr hc)
  · obtain ⟨o, ho, hsame⟩ := hl.mirrors m (hmirrors.mem_iff.mpr hm)
    exact ⟨o, howners.mem_iff.mp ho, hsame⟩

/-- **A schema is accepted just if it keeps the declared invariants**, and so whatever the order is
of its tables and of their columns and joins. -/
theorem validate_lawful (schema : Schema) :
    (schema.validate = .ok () ↔ schema.Lawful) ∧
    ∀ next : Schema, schema.unordered = next.unordered →
      (schema.validate = .ok () ↔ next.validate = .ok ()) := by
  have hlawful : ∀ s : Schema, s.validate = .ok () ↔ s.Lawful := fun s =>
    validate_iff.trans ⟨Valid.lawful, Lawful.valid⟩
  refine ⟨hlawful schema, fun next h => ?_⟩
  rw [hlawful, hlawful]
  exact ⟨fun hl => hl.of_unordered h, fun hl => hl.of_unordered h.symm⟩

/-- Tables, columns and joins may all stand the other way round. -/
theorem followedUsers_reordered :
    let turned : Schema := ⟨(followedUsers.tables.map fun t =>
      { t with columns := t.columns.reverse, joins := t.joins.reverse }).reverse⟩
    turned ≠ followedUsers ∧ followedUsers.unordered = turned.unordered ∧
      followedUsers.Lawful ∧ turned.validate = .ok () := by
  intro turned
  have hvalidate : followedUsers.validate = .ok () := ok_of_toOption (by decide +kernel)
  have horder : followedUsers.unordered = turned.unordered := by decide +kernel
  have hlawful := followedUsers.validate_lawful
  exact ⟨by decide +kernel, horder, hlawful.1.mp hvalidate,
    (hlawful.2 turned horder).mp hvalidate⟩

end Schema

end ErModel
