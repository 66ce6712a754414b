import ErModel.Proofs.ForeignKeys
import Mathlib.Data.List.Nodup

/-!
# Edits that only add

Creating and duplicating a table, adding a column, connecting two tables and changing the fields of
a table take nothing away, and what they add is made to fit: it has new ids and a free name, no
fault, and no join but one with an id that is not in use. So they succeed on every valid schema,
whatever its ids are, and everything that was there stays where it was. The one exception is a
column for a table without any, which would have no key.
-/

namespace ErModel

/-! ## Copies of a table -/

/-- The same columns in the same places under other ids, with the key in the place of the key, and
without relationships. -/
structure Table.Copies (copy pattern : Table) : Prop where
  columns : List.Forall₂
    (fun c d : Column => d = { c with id := d.id, tableId := copy.id, foreignKey := none })
    pattern.columns copy.columns
  columnIds : (copy.columns.map (·.id)).Nodup
  key : ∀ (i : Nat) (c d : Column), pattern.columns[i]? = some c → copy.columns[i]? = some d →
    (copy.primaryKey = some d.id ↔ pattern.primaryKey = some c.id)
  ownKey : ∀ key, copy.primaryKey = some key → key ∈ copy.columns.map (·.id)
  joins : copy.joins = []
  description : copy.description = pattern.description

namespace Table

/-- In a sound table the key is the column that is flagged. -/
theorem Sound.primaryKey_iff {table : Table} (h : table.Sound) {c : Column}
    (hc : c ∈ table.columns) : table.primaryKey = some c.id ↔ c.primaryKey = true := by
  rcases h.key with hnone | ⟨key, hkey, hprimary⟩
  · exact absurd hc (hnone ▸ List.not_mem_nil)
  have hmem : key ∈ table.columns.filter (·.primaryKey) := hkey ▸ List.mem_singleton.mpr rfl
  obtain ⟨hcolumn, hflag⟩ := List.mem_filter.mp hmem
  rw [hprimary]
  constructor
  · intro he
    rwa [eq_of_key_eq h.columnIds hc hcolumn (Option.some.inj he).symm]
  · intro hflagged
    have hone : c ∈ [key] := hkey ▸ List.mem_filter.mpr ⟨hc, hflagged⟩
    rw [List.mem_singleton.mp hone]

variable {table : Table} {name : String} {ids : IdSupply}

theorem columns_copy (table : Table) (name : String) (ids : IdSupply) :
    List.Forall₂
      (fun c d : Column => d = { c with id := d.id, tableId := ids.tableId 0, foreignKey := none })
      table.columns (table.copy name ids).columns := by
  rw [List.forall₂_iff_get]
  refine ⟨by simp [copy], fun i h₁ h₂ => ?_⟩
  simp [copy]

theorem columnIds_copy (table : Table) (name : String) (ids : IdSupply) :
    (table.copy name ids).columns.map (·.id) =
      (List.range table.columns.length).map fun i => ids.columnId (i + 1) := by
  rw [copy, map_mapIdx]
  refine List.ext_getElem (by simp) fun i h₁ h₂ => ?_
  simp

/-- **A copy of a sound table is sound.** -/
theorem Sound.copy (h : table.Sound) (name : String) (ids : IdSupply) :
    (table.copy name ids).Sound := by
  have hcolumns := table.columns_copy name ids
  refine ⟨?_, fun d hd => ?_, fun d hd => ?_, ?_⟩
  · rw [columnIds_copy]
    refine List.Nodup.map (fun i j he => ?_) List.nodup_range
    have htext := ids.text_injective (congrArg ColumnId.text he)
    omega
  · obtain ⟨c, -, he⟩ := exists_left hcolumns hd
    exact congrArg Column.tableId he
  · obtain ⟨c, hc, he⟩ := exists_left hcolumns hd
    rw [he]
    exact h.faultless c hc
  · -- the columns that are flagged are the copies of those that are
    have hkeys := List.rel_filter (p := (·.primaryKey)) (q := (·.primaryKey))
      (fun c d he => by rw [he]) hcolumns
    rcases h.key with hnone | ⟨key, hkey, -⟩
    · exact Or.inl (by rw [Table.copy, hnone]; rfl)
    · rw [hkey] at hkeys
      obtain ⟨d, hd⟩ := List.length_eq_one_iff.mp hkeys.length_eq.symm
      refine Or.inr ⟨d, hd, ?_⟩
      show (((table.copy name ids).columns.filter (·.primaryKey)).getLast?).map (·.id) = some d.id
      rw [hd]
      rfl

theorem Sound.copies (h : table.Sound) (name : String) (ids : IdSupply) :
    (table.copy name ids).Copies table where
  columns := table.columns_copy name ids
  columnIds := (h.copy name ids).columnIds
  key := by
    intro i c d hc hd
    have hflag : d.primaryKey = c.primaryKey := by
      rw [Table.copy, List.getElem?_mapIdx, hc] at hd
      exact (congrArg Column.primaryKey (Option.some.inj hd)).symm
    rw [(h.copy name ids).primaryKey_iff (List.mem_of_getElem? hd),
      h.primaryKey_iff (List.mem_of_getElem? hc), hflag]
  ownKey := by
    intro key hkey
    obtain ⟨d, hd, rfl⟩ := Option.map_eq_some_iff.mp hkey
    exact List.mem_map.mpr ⟨d, (List.mem_filter.mp (List.mem_of_getLast? hd)).1, rfl⟩
  joins := rfl
  description := rfl

end Table

namespace Schema

variable {schema next : Schema} {ids : IdSupply}

/-! ## Changes that no record sees -/

/-- What takes no column away and leaves every record where it is leaves a valid schema, if its
tables are sound and told apart. -/
theorem valid_of_records (hv : schema.Valid) (hids : (next.tables.map (·.id)).Nodup)
    (hnames : (next.tables.map (·.name)).Nodup) (htables : ∀ t ∈ next.tables, t.Sound)
    (hseats : next.seats = schema.seats) (hmirrors : next.mirrorRecords = schema.mirrorRecords)
    (hkept : schema.KeptBy next) : next.Valid := by
  have howners : next.owners = schema.owners := by
    have hseated : ∀ s : Schema, s.owners = s.seats.map fun seat => (seat.table, seat.join) := by
      intro s
      rw [seats_eq, owners_eq, List.map_map]
      rfl
    rw [hseated, hseated, hseats]
  have hall : ∀ records : List (TableId × Join), records.filter (·.2.id ∉ []) = records :=
    fun records => List.filter_eq_self.mpr fun _ _ => by simp
  have hrebuilt : schema.Rebuilt next [] [] [] :=
    { ids := hids
      names := hnames
      owners := by rw [hall, howners]; exact .refl _
      mirrors := by rw [hall, hmirrors]; exact .refl _
      seats := fun s hs => Or.inl (hseats ▸ hs)
      addedIds := List.nodup_nil
      fresh := fun _ h => absurd h List.not_mem_nil
      sources := fun _ h => absurd h List.not_mem_nil
      fits := fun _ h => absurd h List.not_mem_nil
      mirrorIds := List.nodup_nil
      mirrored := fun _ h => absurd h List.not_mem_nil }
  refine (hrebuilt.valid_iff hv).mpr ⟨htables, fun o ho => ?_⟩
  obtain ⟨owned, howned, rfl⟩ := exists_owned (howners ▸ ho)
  exact (hasTarget_iff hids).mpr fun target ht => hkept.offers (offers_of_owner hv howned ht)

/-- A table without joins has come behind the others, with ids and a name of its own. -/
structure Gains (schema next : Schema) (table : Table) : Prop where
  tables : next.tables = schema.tables ++ [table]
  id : table.id ∉ schema.tables.map (·.id)
  name : table.name ∉ schema.tables.map (·.name)
  columnIds : ∀ t ∈ schema.tables, ∀ c ∈ table.columns, c.id ∉ t.columns.map (·.id)
  foreignKeys : ∀ c ∈ table.columns, c.foreignKey = none
  joins : table.joins = []

/-- **A sound table that is new to a valid schema can come into it.** -/
theorem Gains.valid (hv : schema.Valid) {table : Table} (h : schema.Gains next table)
    (hs : table.Sound) : next.Valid := by
  obtain rfl : next = schema.append table := congrArg Schema.mk h.tables
  have howners : table.owners = [] := by
    rw [Table.owners, Table.pendingJoins, h.joins]
    exact List.append_eq_nil_iff.mpr ⟨List.filterMap_eq_nil_iff.mpr h.foreignKeys, rfl⟩
  have hmirrors : table.mirrors = [] := by rw [Table.mirrors, h.joins]; rfl
  refine valid_of_records hv ?_ ?_ ?_ (seats_append_of_owners_nil howners) ?_
    (keptBy_append schema table)
  · rw [append, List.map_append]
    refine List.nodup_append.mpr ⟨hv.ids, by simp, fun id hid other hother he => h.id ?_⟩
    rwa [← show other = table.id from List.mem_singleton.mp hother, ← he]
  · rw [append, List.map_append]
    refine List.nodup_append.mpr ⟨hv.names, by simp, fun name hname other hother he => h.name ?_⟩
    rwa [← show other = table.name from List.mem_singleton.mp hother, ← he]
  · exact List.forall_mem_append.mpr ⟨hv.tables, List.forall_mem_singleton.mpr hs⟩
  · rw [mirrorRecords, collect_append, hmirrors]
    exact List.append_nil _

/-! ## New tables -/

theorem gains_append (hf : ids.FreshFor schema) {table : Table} {wanted : String}
    (hid : table.id = ids.tableId 0) (hname : table.name = schema.freeTableName wanted)
    (hcolumns : ∀ c ∈ table.columns, (∃ k, c.id = ids.columnId k) ∧ c.foreignKey = none)
    (hjoins : table.joins = []) : schema.Gains (schema.append table) table where
  tables := rfl
  id := by
    rw [hid]
    intro hmem
    obtain ⟨t, ht, he⟩ := List.mem_map.mp hmem
    exact hf.tableId_ne 0 ht he.symm
  name := hname ▸ freeName_not_mem _ _
  columnIds := by
    intro t ht c hc
    obtain ⟨⟨k, hk⟩, -⟩ := hcolumns c hc
    exact hk ▸ hf.columnId_notMem k ht
  foreignKeys := fun c hc => (hcolumns c hc).2
  joins := hjoins

theorem createTable_gains (hv : schema.Valid) (hf : ids.FreshFor schema) (name : String)
    {keyType : DataType} (hscale : keyType.hasLooseScale = false) :
    ∃ next table, schema.createTable ids name keyType = .ok (next, table.id) ∧
      schema.Gains next table ∧ table =
        Table.seeded (ids.tableId 0) (ids.columnId 1) (schema.freeTableName name) keyType := by
  let table := Table.seeded (ids.tableId 0) (ids.columnId 1) (schema.freeTableName name) keyType
  have hgains : schema.Gains (schema.append table) table :=
    gains_append hf rfl rfl (List.forall_mem_singleton.mpr ⟨⟨1, rfl⟩, rfl⟩) rfl
  refine ⟨_, table, ?_, hgains, rfl⟩
  rw [createTable, settle_of_valid (hgains.valid hv (Table.sound_seeded _ _ _ hscale))]
  rfl

theorem duplicateTable_gains (hv : schema.Valid) (hf : ids.FreshFor schema) {t : Table}
    (ht : t ∈ schema.tables) : ∃ next copy, schema.duplicateTable ids t.id = .ok (next, copy.id) ∧
      schema.Gains next copy ∧ copy.Copies t := by
  have hsound := hv.tables t ht
  let copy := t.copy (schema.freeTableName (t.name ++ "_copy")) ids
  have hgains : schema.Gains (schema.append copy) copy := by
    refine gains_append hf rfl rfl (fun d hd => ?_) rfl
    obtain ⟨i, hi, rfl⟩ := List.mem_mapIdx.mp hd
    exact ⟨⟨i + 1, rfl⟩, rfl⟩
  refine ⟨_, copy, ?_, hgains, hsound.copies _ ids⟩
  rw [duplicateTable, requireTable_eq_ok.mpr (table?_of_mem hv.ids ht)]
  show ((schema.append copy).settle >>= fun next => pure (next, copy.id)) = _
  rw [settle_of_valid (hgains.valid hv (hsound.copy _ ids))]
  rfl

/-! ## Fields and columns of a table -/

/-- A table has changed, and what it holds of joins has not. -/
theorem valid_modifyTable (hv : schema.Valid) {t : Table} (ht : t ∈ schema.tables)
    {f : Table → Table} (hid : ∀ u, (f u).id = u.id)
    (hnames : ((schema.modifyTable t.id f).tables.map (·.name)).Nodup) (hsound : (f t).Sound)
    (hseats : ∀ u, (f u).seats = u.seats) (hmirrors : ∀ u, (f u).mirrors = u.mirrors)
    (hcolumns : ∀ u, u.columns.map (·.id) ⊆ (f u).columns.map (·.id)) :
    (schema.modifyTable t.id f).Valid := by
  refine valid_of_records hv ?_ hnames ?_ ?_ ?_ ?_
  · exact (ids_modifyTable hid).symm ▸ hv.ids
  · exact (sound_modifyTable_iff hv.ids hv.tables ht).mpr hsound
  · exact seats_modifyTable_eq fun u _ _ => hseats u
  · exact collect_modifyTable_eq fun u _ _ => by rw [hmirrors, hid]
  · exact keptBy_modifyTable hv.ids fun u _ _ => ⟨hid u, hcolumns u⟩

/-- Names stay apart if the table that is changed gets one that no other has. -/
theorem names_modifyTable_nodup (hv : schema.Valid) {t : Table} (ht : t ∈ schema.tables)
    {f : Table → Table}
    (hname : ∀ u ∈ schema.tables, u.id ≠ t.id → u.name ≠ (f t).name) :
    ((schema.modifyTable t.id f).tables.map (·.name)).Nodup := by
  rw [tables_modifyTable hv.ids, List.map_map]
  refine List.Nodup.map_on (fun u hu v hw he => ?_) (List.Nodup.of_map _ hv.ids)
  have hsame : ∀ {u}, u ∈ schema.tables → u.id = t.id → u = t := fun hu => eq_of_key_eq hv.ids hu ht
  simp only [Function.comp] at he
  by_cases hu' : u.id = t.id <;> by_cases hv' : v.id = t.id
  · rw [hsame hu hu', hsame hw hv']
  · rw [if_pos hu', if_neg hv', hsame hu hu'] at he
    exact absurd he.symm (hname v hw hv')
  · rw [if_neg hu', if_pos hv', hsame hw hv'] at he
    exact absurd he (hname u hu hu')
  · rw [if_neg hu', if_neg hv'] at he
    exact eq_of_key_eq hv.names hu hw he

theorem replaceTableFields_changes (hv : schema.Valid) {t : Table} (ht : t ∈ schema.tables)
    {patch : TablePatch}
    (hfree : ∀ name, patch.name = some name → ∀ u ∈ schema.tables, u.id ≠ t.id → u.name ≠ name) :
    ∃ next, schema.replaceTableFields t.id patch = .ok next ∧
      next.tables = schema.tables.map fun u => if u.id = t.id then patch.apply u else u := by
  have hname : ∀ u ∈ schema.tables, u.id ≠ t.id → u.name ≠ (patch.apply t).name := by
    intro u hu hne he
    cases hgiven : patch.name with
    | none =>
        rw [TablePatch.apply, hgiven] at he
        exact hne (congrArg Table.id (eq_of_key_eq hv.names hu ht he))
    | some name =>
        rw [TablePatch.apply, hgiven] at he
        exact hfree name hgiven u hu hne he
  obtain ⟨hcolumns, hhome, hfaultless, hkey⟩ := hv.tables t ht
  have hnext : (schema.modifyTable t.id patch.apply).Valid :=
    valid_modifyTable hv ht (fun _ => rfl) (names_modifyTable_nodup hv ht hname)
      ⟨hcolumns, hhome, hfaultless, hkey⟩ (fun _ => rfl) (fun _ => rfl) fun _ => List.Subset.refl _
  refine ⟨_, ?_, tables_modifyTable hv.ids t.id patch.apply⟩
  rw [replaceTableFields, requireTable_eq_ok.mpr (table?_of_mem hv.ids ht)]
  cases hgiven : patch.name with
  | none => exact settle_of_valid hnext
  | some name =>
      have hnone : (schema.tables.any fun u => u.id ≠ t.id && u.name = name) = false := by
        rw [List.any_eq_false]
        intro u hu hboth
        rw [Bool.and_eq_true, decide_eq_true_eq, decide_eq_true_eq] at hboth
        exact hfree name hgiven u hu hboth.1 hboth.2
      show (if schema.tables.any (fun u => u.id ≠ t.id && u.name = name) then _ else _) = _
      rw [hnone]
      exact settle_of_valid hnext

/-- The column that a table gets has an id and a name of its own, and carries no join. -/
structure GainsColumn (schema next : Schema) (t : Table) (column : Column) : Prop where
  tables : next.tables = schema.tables.map fun u =>
    if u.id = t.id then u.addColumn column else u
  id : ∀ u ∈ schema.tables, column.id ∉ u.columns.map (·.id)
  name : column.name ∉ t.columns.map (·.name)
  plain : column = Column.plain column.id t.id column.name

theorem addColumn_gains (hv : schema.Valid) (hf : ids.FreshFor schema) {t : Table}
    (ht : t ∈ schema.tables) (hsome : t.columns ≠ []) (name : String) :
    ∃ next column, schema.addColumn ids t.id name = .ok (next, column.id) ∧
      schema.GainsColumn next t column := by
  let column := Column.plain (ids.columnId 0) t.id (t.freeColumnName name)
  have hsound : (t.addColumn column).Sound :=
    (Table.sound_addColumn_iff (hv.tables t ht) (hf.columnId_notMem 0 ht) rfl rfl rfl).mpr hsome
  have hnext : (schema.modifyTable t.id (·.addColumn column)).Valid := by
    refine valid_modifyTable hv ht (fun _ => rfl) ?_ hsound (fun u => ?_) (fun _ => rfl) fun u => ?_
    · exact (names_modifyTable (f := (·.addColumn column)) fun _ => rfl).symm ▸ hv.names
    · have hcolumns : (u.addColumn column).columns.filterMap (fun c => c.foreignKey.map fun join =>
          (⟨u.id, some c.id, join⟩ : Seat)) = u.columns.filterMap fun c => c.foreignKey.map fun join =>
          ⟨u.id, some c.id, join⟩ := by
        rw [Table.addColumn, List.filterMap_append]
        exact List.append_nil _
      rw [Table.seats, Table.seats, ← hcolumns]
      rfl
    · rw [Table.addColumn, List.map_append]
      exact List.subset_append_left _ _
  refine ⟨_, column, ?_, tables_modifyTable hv.ids t.id (·.addColumn column), ?_, ?_, rfl⟩
  · rw [addColumn, requireTable_eq_ok.mpr (table?_of_mem hv.ids ht)]
    show ((schema.modifyTable t.id (·.addColumn column)).settle >>= fun next =>
      pure (next, column.id)) = _
    rw [settle_of_valid hnext]
    rfl
  · exact fun u hu => hf.columnId_notMem 0 hu
  · exact freeName_not_mem _ _

/-- The check of tables stops at the first that is not sound. -/
theorem checkTables_of_fault {before behind : List Table} {t : Table} {violation : Violation}
    (ht : t.check = .error violation) (hs : ∀ u ∈ before, u.Sound) {seen : List TableId}
    {names : List String} (hi : NewTo (·.id) seen (before ++ t :: behind))
    (hn : NewTo (·.name) names (before ++ t :: behind)) :
    checkTables seen names (before ++ t :: behind) = .error violation := by
  induction before generalizing seen names with
  | nil =>
      rw [List.nil_append, checkTables, if_neg (newTo_cons.mp hi).1, if_neg (newTo_cons.mp hn).1, ht]
      rfl
  | cons u rest ih =>
      rw [List.forall_mem_cons] at hs
      rw [List.cons_append, newTo_cons] at hi hn
      rw [List.cons_append, checkTables, if_neg hi.1, if_neg hn.1, Table.check_eq_ok.mpr hs.1]
      exact ih hs.2 hi.2 hn.2

/-- **A table without columns gets none**, as it would have no key. -/
theorem addColumn_of_bare (hv : schema.Valid) {t : Table} (ht : t ∈ schema.tables)
    (hnone : t.columns = []) (name : String) :
    schema.addColumn ids t.id name = .error (.violation (.keyCount t.name 0)) := by
  let column := Column.plain (ids.columnId 0) t.id (t.freeColumnName name)
  have hcheck : (t.addColumn column).check = .error (.keyCount t.name 0) := by
    have hcolumns : (t.addColumn column).columns = [column] := by rw [Table.addColumn, hnone]; rfl
    have hfit : checkColumns (t.addColumn column) [] [column] = .ok () := checkColumns_eq_ok.mpr
      ⟨newTo_nil.mpr (List.nodup_singleton _), List.forall_mem_singleton.mpr ⟨rfl, rfl⟩⟩
    rw [Table.check, checkKey, hcolumns, hfit]
    rfl
  obtain ⟨before, behind, hsplit, hmod⟩ :=
    modifyFirst_of_find? (f := (·.addColumn column)) (table?_of_mem hv.ids ht)
  have hids : (schema.modifyTable t.id (·.addColumn column)).tables.map (·.id) =
      schema.tables.map (·.id) := ids_modifyTable fun _ => rfl
  have hnames : (schema.modifyTable t.id (·.addColumn column)).tables.map (·.name) =
      schema.tables.map (·.name) := names_modifyTable fun _ => rfl
  have hvalidate : (schema.modifyTable t.id (·.addColumn column)).validate =
      .error (.keyCount t.name 0) := by
    rw [modifyTable, hmod] at hids hnames
    rw [validate, modifyTable, hmod, checkTables_of_fault hcheck
      (fun u hu => hv.tables u (hsplit ▸ List.mem_append_left _ hu))
      (newTo_nil.mpr (hids ▸ hv.ids)) (newTo_nil.mpr (hnames ▸ hv.names))]
    rfl
  rw [addColumn, requireTable_eq_ok.mpr (table?_of_mem hv.ids ht)]
  show ((schema.modifyTable t.id (·.addColumn column)).settle >>= fun next =>
    pure (next, column.id)) = _
  rw [settle, hvalidate]
  rfl

/-! ## Connecting two tables -/

/-- A declared join refers to the column that is named, or else to a key of the table. -/
theorem hasTarget_declared {target : Table} (ht : schema.table? target.id = some target)
    {column : Option ColumnId} (hc : ∀ c, column = some c → (target.column? c).isSome = true)
    (source : TableId) (onDelete onUpdate : Action) :
    schema.HasTarget (.declared source target.id (column.or (target.keyColumn?.map (·.id))) onDelete
      onUpdate) := by
  rintro _ ⟨⟩
  refine ⟨target, ht, fun c hchosen => ?_⟩
  cases column with
  | some named => exact hc c hchosen
  | none =>
      obtain ⟨key, hkey, rfl⟩ := Option.map_eq_some_iff.mp hchosen
      exact Table.isSome_column?_iff.mpr ⟨key, List.mem_of_find?_eq_some hkey, rfl⟩

section

variable {source target : Table} {column : Option ColumnId}

/-- A pair whose join is there already is left as it is. -/
theorem connect_of_contained (hs : schema.table? source.id = some source)
    (ht : schema.table? target.id = some target)
    (hc : schema.containsJoin (.between source.id target.id) = true) (onDelete onUpdate : Action) :
    schema.connect source.id target.id column onDelete onUpdate =
      .ok (schema, .between source.id target.id) :=
  (connect_iff (Or.inl ⟨_, rfl⟩)).mpr ⟨source, target, hs, ht, Or.inl ⟨hc, rfl⟩⟩

/-- **Two tables without a join of their own are connected.** -/
theorem connect_declares (hv : schema.Valid) (hs : source ∈ schema.tables)
    (ht : target ∈ schema.tables) (hc : ∀ c, column = some c → (target.column? c).isSome = true)
    (hnew : schema.containsJoin (.between source.id target.id) = false)
    (onDelete onUpdate : Action) {join : Join}
    (hjoin : join = .declared source.id target.id (column.or (target.keyColumn?.map (·.id)))
      onDelete onUpdate) :
    (schema.declare join).Valid ∧ schema.connect source.id target.id column onDelete onUpdate =
      .ok (schema.declare join, .between source.id target.id) := by
  subst hjoin
  have hsource := table?_of_mem hv.ids hs
  have htarget := table?_of_mem hv.ids ht
  have hnext := valid_declare hv hnew rfl (hsource ▸ rfl)
    (hasTarget_declared htarget hc source.id onDelete onUpdate)
  refine ⟨hnext, (connect_iff (Or.inl ⟨_, rfl⟩)).mpr ⟨source, target, hsource, htarget,
    Or.inr ⟨hnew, hc, ?_⟩⟩⟩
  rw [settle_of_valid hnext]
  rfl

end

/-- A pending join that is new has come behind the joins of the table that declares it, and its
mirror behind those of the table that it refers to. -/
structure GainsJoin (schema next : Schema) (join : Join) : Prop where
  tables : next.tables = schema.tables.map fun t => { t with joins := t.joins ++ join.recordsOn t.id }
  id : join.id ∉ schema.owningJoins.map (·.join.id)

theorem connect_gains (hv : schema.Valid) {source target : Table} (hs : source ∈ schema.tables)
    (ht : target ∈ schema.tables) {column : Option ColumnId}
    (hc : ∀ c, column = some c → (target.column? c).isSome = true) (onDelete onUpdate : Action) :
    ∃ next, schema.connect source.id target.id column onDelete onUpdate =
        .ok (next, .between source.id target.id) ∧
      if schema.containsJoin (.between source.id target.id) then next = schema
      else schema.GainsJoin next (.declared source.id target.id
        (column.or (target.keyColumn?.map (·.id))) onDelete onUpdate) := by
  cases hnew : schema.containsJoin (.between source.id target.id) with
  | true =>
      exact ⟨schema, connect_of_contained (table?_of_mem hv.ids hs) (table?_of_mem hv.ids ht) hnew
        onDelete onUpdate, rfl⟩
  | false =>
      refine ⟨_, (connect_declares hv hs ht hc hnew onDelete onUpdate rfl).2, ?_, ?_⟩
      · rw [declare_eq hv.ids rfl, carrying, mapTables]
        simp only [List.flatMap_singleton]
      · rw [ownerIds_eq, ← containsJoin_iff]
        exact hnew.symm ▸ Bool.false_ne_true

/-! ## All of them -/

/-- What the edits that only add do, each to the tables that the schema has. -/
structure Constructive (schema : Schema) (ids : IdSupply) : Prop where
  createTable : ∀ (name : String) (keyType : DataType), keyType.hasLooseScale = false →
    ∃ next table, schema.createTable ids name keyType = .ok (next, table.id) ∧
      schema.Gains next table ∧ table =
        Table.seeded (ids.tableId 0) (ids.columnId 1) (schema.freeTableName name) keyType
  duplicateTable : ∀ t ∈ schema.tables,
    ∃ next copy, schema.duplicateTable ids t.id = .ok (next, copy.id) ∧
      schema.Gains next copy ∧ copy.Copies t
  /-- If the id of the pair is in use, nothing changes. -/
  connect : ∀ source ∈ schema.tables, ∀ target ∈ schema.tables,
    ∀ (column : Option ColumnId) (onDelete onUpdate : Action),
    (∀ c, column = some c → (target.column? c).isSome = true) →
    ∃ next, schema.connect source.id target.id column onDelete onUpdate =
        .ok (next, .between source.id target.id) ∧
      if schema.containsJoin (.between source.id target.id) then next = schema
      else schema.GainsJoin next (.declared source.id target.id
        (column.or (target.keyColumn?.map (·.id))) onDelete onUpdate)
  replaceTableFields : ∀ t ∈ schema.tables, ∀ patch : TablePatch,
    (∀ name, patch.name = some name → ∀ u ∈ schema.tables, u.id ≠ t.id → u.name ≠ name) →
    ∃ next, schema.replaceTableFields t.id patch = .ok next ∧
      next.tables = schema.tables.map fun u => if u.id = t.id then patch.apply u else u
  addColumn : ∀ t ∈ schema.tables, t.columns ≠ [] → ∀ name,
    ∃ next column, schema.addColumn ids t.id name = .ok (next, column.id) ∧
      schema.GainsColumn next t column
  /-- With the column the table would have a column and no key. -/
  addFirstColumn : ∀ t ∈ schema.tables, t.columns = [] → ∀ name,
    schema.addColumn ids t.id name = .error (.violation (.keyCount t.name 0))

/-- **Edits that only add succeed on every valid schema and leave all that was there**, but for a
column for a table that has none. -/
theorem constructive (hv : schema.validate = .ok ()) (hf : ids.FreshFor schema) :
    schema.Constructive ids := by
  have hvalid := validate_iff.mp hv
  exact
    { createTable := fun name _ hscale => createTable_gains hvalid hf name hscale
      duplicateTable := fun _ ht => duplicateTable_gains hvalid hf ht
      connect := fun _ hs _ ht _ onDelete onUpdate hc =>
        connect_gains hvalid hs ht hc onDelete onUpdate
      replaceTableFields := fun _ ht _ hfree => replaceTableFields_changes hvalid ht hfree
      addColumn := fun _ ht hsome name => addColumn_gains hvalid hf ht hsome name
      addFirstColumn := fun _ ht hnone name => addColumn_of_bare hvalid ht hnone name }

/-- Posts with an author, and a table that has no columns yet. -/
def postsAndNotes : Schema :=
  let author : Join := { Join.declared ⟨"p"⟩ ⟨"u"⟩ (some ⟨"u1"⟩) .cascade .restrict with
    kind := .manyToOne }
  let users := Table.seeded ⟨"u"⟩ ⟨"u1"⟩ "User" .uuid
  let posts := (Table.seeded ⟨"p"⟩ ⟨"p1"⟩ "Post" .uuid).addColumn
    (Column.foreign ⟨"p2"⟩ ⟨"p"⟩ "userId" .uuid author)
  let notes : Table := { users with id := ⟨"n"⟩, name := "Note", primaryKey := none, columns := [] }
  (((empty.append users).append posts).append notes).addMirror author

theorem postsAndNotes_constructive : postsAndNotes.validate = .ok () ∧
    IdSupply.FreshFor ⟨"j", 0⟩ postsAndNotes ∧ postsAndNotes.Constructive ⟨"j", 0⟩ := by
  have hvalidate : postsAndNotes.validate = .ok () := ok_of_toOption (by decide +kernel)
  have hfirst : ∀ text ∈ postsAndNotes.collect Table.idTexts, text.toList.head? ≠ some 'j' := by
    decide +kernel
  have hfresh : IdSupply.FreshFor ⟨"j", 0⟩ postsAndNotes := by
    refine fun k hk => hfirst _ hk ?_
    rw [IdSupply.text, String.toList_append]
    rfl
  exact ⟨hvalidate, hfresh, constructive hvalidate hfresh⟩

end Schema

end ErModel
