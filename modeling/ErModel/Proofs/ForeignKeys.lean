import ErModel.Proofs.Configured
import ErModel.Proofs.EdgeSet

/-!
# What configuring a join makes of a schema

A join that is configured ends up in one shape, whatever it was before: a column carries its only
owning record, and the table that it refers to has its mirror, unless that is the table of the column
itself. The column is the one that the join had, or else a new one at the end of its table. Nothing
else of the schema changes.

That is said in two parts. `ForeignKeyAt` is about the schema that comes out and does not mention the
one that went in; an equation of the tables says what has become of those.
-/

namespace ErModel

/-- What the table holds of a join of another one: its mirror, if the join refers to it. -/
def Join.mirrorsOn (join : Join) (table : TableId) : List Join :=
  if join.peer? = some table ∧ table ≠ join.source then [join.mirror] else []

/-- The table with other columns, without the records of a join among its joins, and with its mirrors
of `records` behind those. -/
def Table.rejoined (table : Table) (join : JoinId) (records : List Join)
    (columns : List Column) : Table :=
  { table with
    columns := columns
    joins := table.joins.filter (·.id ≠ join) ++ records.flatMap (·.mirrorsOn table.id) }

/-- A join of a table with itself has no mirror. -/
theorem Join.mirrorsOn_self {join : Join} (h : join.peer? = some join.source) (table : TableId) :
    join.mirrorsOn table = [] :=
  if_neg fun hother => hother.2 (Option.some.inj (hother.1.symm.trans h))

theorem Join.mem_mirrorsOn {join record : Join} {table : TableId} :
    record ∈ join.mirrorsOn table ↔
      (join.peer? = some table ∧ table ≠ join.source) ∧ record = join.mirror := by
  unfold mirrorsOn
  split
  · rename_i h
    rw [List.mem_singleton, and_iff_right h]
  · rename_i h
    exact iff_of_false List.not_mem_nil fun hm => h hm.1

/-- What a rejoined table has of the join is the mirror of its new record. -/
theorem Table.mem_joins_rejoined {table : Table} {record j : Join} {columns : List Column}
    (hj : j ∈ (table.rejoined record.id [record] columns).joins) (hid : j.id = record.id) :
    j ∈ record.mirrorsOn table.id := by
  rcases List.mem_append.mp hj with hold | hnew
  · exact absurd hid (by simpa using (List.mem_filter.mp hold).2)
  · rwa [List.flatMap_singleton] at hnew

theorem Table.isSome_column?_iff {table : Table} {id : ColumnId} :
    (table.column? id).isSome = true ↔ ∃ c ∈ table.columns, c.id = id := by
  rw [column?, List.find?_isSome]
  simp

/-- The tables that are to hold the column of a join that is pending and to be referred to by it.
The column of a one-to-many join goes to the table that was chosen. -/
def JoinConfig.ends (config : JoinConfig) (declaring : TableId) : TableId × TableId :=
  if config.kind = .oneToMany then (config.target.table, declaring)
  else (declaring, config.target.table)

namespace Schema

/-- The column `k` of `H` is the foreign key of a join, and refers to the column `r` of `R`. -/
structure ForeignKeyAt (schema : Schema) (record : Join) (H : Table) (k : Column) (R : Table)
    (r : Column) : Prop where
  holder : H ∈ schema.tables ∧ k ∈ H.columns
  referenced : R ∈ schema.tables ∧ r ∈ R.columns
  ends : record.source = H.id ∧ record.target = some ⟨R.id, some r.id⟩
  dataType : k.dataType = r.dataType
  /-- There is no other owning record. -/
  owner : schema.owningJoins.filter (·.join.id = record.id) = [⟨H, some k, record⟩]
  pending : schema.pending? record.id = none
  mirrors : schema.mirrors record.id = if R.id = H.id then [] else [(R, record.mirror)]

/-- Configuring a join has made a foreign key of it. -/
structure Configures (schema next : Schema) (join : JoinId) (config : JoinConfig) (H : Table)
    (k : Column) (R : Table) (r : Column) : Prop where
  shape : next.ForeignKeyAt (config.record join H.id R.id r.id) H k R r
  /-- Apart from the columns of `H` and the records of the join, all tables are what they were. -/
  frame : next.tables = schema.tables.map fun t =>
    t.rejoined join [config.record join H.id R.id r.id] (if t.id = H.id then H.columns else t.columns)
  /-- A join that has a column keeps it, and the column keeps all but its type. -/
  kept : ∀ t c, schema.foreignKey? join = some (t, c) →
    H.id = t.id ∧ k.id = c.id ∧ R.id = config.target.table ∧
    H.columns = t.columns.map fun d => if d.id = c.id then
      { d with dataType := r.dataType, foreignKey := k.foreignKey } else d
  /-- A join that is pending gets a new column, behind the others. -/
  made : ∀ t record, schema.pending? join = some (t, record) →
    (H.id, R.id) = config.ends t.id ∧
    ∃ before, schema.table? H.id = some before ∧ H.columns = before.columns ++ [k] ∧
      k.id ∉ before.columns.map (·.id) ∧ k.name ∉ before.columns.map (·.name)

variable {schema next : Schema}

/-! ## Tables as they come out -/

theorem tables_modifyTable (hn : (schema.tables.map (·.id)).Nodup) (id : TableId)
    (f : Table → Table) : (schema.modifyTable id f).tables =
      schema.tables.map fun t => if t.id = id then f t else t :=
  modifyFirst_eq_map hn id

theorem tables_addMirror (hn : (schema.tables.map (·.id)).Nodup) {record : Join}
    {target : JoinTarget} (ht : record.target = some target) :
    (schema.addMirror record).tables = schema.tables.map fun t =>
      { t with joins := t.joins ++ record.mirrorsOn t.id } := by
  have hpeer : record.peer? = some target.table := by rw [Join.peer?, ht]; rfl
  by_cases he : target.table = record.source
  · rw [addMirror_of_eq ht he]
    refine Eq.trans (List.map_id' schema.tables).symm (List.map_congr_left fun t _ => ?_)
    rw [Join.mirrorsOn_self (hpeer.trans (congrArg some he)), List.append_nil]
  · rw [addMirror_of_ne ht he, tables_modifyTable hn]
    refine List.map_congr_left fun t _ => ?_
    by_cases hid : t.id = target.table
    · rw [if_pos hid, Join.mirrorsOn, if_pos ⟨by rw [hid, hpeer], hid ▸ he⟩]
      rfl
    · rw [if_neg hid, Join.mirrorsOn, if_neg fun h => hid (Option.some.inj (h.1.symm.trans hpeer)),
        List.append_nil]

/-- One table gets a column for a record, and another one its mirror. -/
theorem tables_seated (hn : (schema.tables.map (·.id)).Nodup) {record : Join} {target : JoinTarget}
    (ht : record.target = some target) {f : Table → Table} (hid : ∀ t, (f t).id = t.id) :
    ((schema.modifyTable record.source f).addMirror record).tables = schema.tables.map fun t =>
      let seated := if t.id = record.source then f t else t
      { seated with joins := seated.joins ++ record.mirrorsOn t.id } := by
  have hids : (schema.modifyTable record.source f).tables.map (·.id) = schema.tables.map (·.id) :=
    ids_modifyTable hid
  rw [tables_addMirror (hids ▸ hn) ht, tables_modifyTable hn, List.map_map]
  refine List.map_congr_left fun t _ => ?_
  by_cases hs : t.id = record.source
  · simp only [Function.comp, if_pos hs, hid]
  · simp only [Function.comp, if_neg hs]

/-- A join goes onto the column that it has. -/
theorem tables_onColumn (hn : (schema.tables.map (·.id)).Nodup) {record : Join}
    {target : JoinTarget} (ht : record.target = some target) (column : ColumnId)
    (dataType : DataType) :
    (((schema.clear record.id).modifyTable record.source
      (·.setForeignKey column dataType record)).addMirror record).tables =
        schema.tables.map fun t => t.rejoined record.id [record]
          (if t.id = record.source then (t.setForeignKey column dataType record).columns
            else t.columns) := by
  have hids : (schema.clear record.id).tables.map (·.id) = schema.tables.map (·.id) := by
    rw [clear, mapTables, List.map_map]
    rfl
  rw [tables_seated (f := (·.setForeignKey column dataType record)) (hids ▸ hn) ht fun _ => rfl,
    clear, mapTables, List.map_map]
  refine List.map_congr_left fun t _ => ?_
  have hid : (t.clear record.id).id = t.id := rfl
  by_cases hs : t.id = record.source
  · simp only [Function.comp, Table.rejoined, List.flatMap_singleton, hid, if_pos hs]
    rfl
  · simp only [Function.comp, Table.rejoined, List.flatMap_singleton, hid, if_neg hs]
    rfl

/-- A join goes onto a new column. None has carried it, so none goes away. -/
theorem tables_onNewColumn (hn : (schema.tables.map (·.id)).Nodup) {record : Join}
    {target : JoinTarget} (ht : record.target = some target)
    (hnone : schema.foreignKey? record.id = none) {column : Table → Column}
    (hcolumn : ∀ t ∈ schema.tables, column (t.strip record.id) = column t) :
    (((schema.strip record.id).modifyTable record.source fun t =>
      t.addColumn (column t)).addMirror record).tables =
        schema.tables.map fun t => t.rejoined record.id [record]
          (if t.id = record.source then t.columns ++ [column t] else t.columns) := by
  have hids := ids_strip schema record.id
  rw [tables_seated (f := fun t => t.addColumn (column t)) (hids ▸ hn) ht fun _ => rfl, strip,
    mapTables, List.map_map]
  refine List.map_congr_left fun t hmem => ?_
  have hcolumns : (t.strip record.id).columns = t.columns :=
    Table.columns_strip_of_uncarried (foreignKey?_eq_none hnone t hmem)
  have hid : (t.strip record.id).id = t.id := rfl
  by_cases hs : t.id = record.source
  · simp only [Function.comp, Table.rejoined, List.flatMap_singleton, Table.addColumn, hid,
      if_pos hs, hcolumns, hcolumn t hmem]
    rfl
  · simp only [Function.comp, Table.rejoined, List.flatMap_singleton, hid, if_neg hs]
    rw [← hcolumns]
    rfl

/-! ## The shape -/

section

variable {record : Join} {columns : Table → List Column}

theorem mirrors_rejoined (htables : next.tables = schema.tables.map fun t =>
    t.rejoined record.id [record] (columns t)) :
    next.mirrors record.id = schema.tables.flatMap fun t =>
      (record.mirrorsOn t.id).map fun j => (t.rejoined record.id [record] (columns t), j) := by
  rw [mirrors, htables, List.flatMap_map]
  refine congrArg (List.flatMap · _) (funext fun t => congrArg _ ?_)
  have hkept : (t.joins.filter (·.id ≠ record.id)).filter
      (fun j => j.id = record.id && j.source ≠ t.id) = [] :=
    List.filter_eq_nil_iff.mpr fun j hj => by
      have hne : j.id ≠ record.id := by simpa using (List.mem_filter.mp hj).2
      simp [hne]
  have hmade : (record.mirrorsOn t.id).filter
      (fun j => j.id = record.id && j.source ≠ t.id) = record.mirrorsOn t.id :=
    List.filter_eq_self.mpr fun j hj => by
      obtain ⟨⟨-, hne⟩, rfl⟩ := Join.mem_mirrorsOn.mp hj
      simp [hne.symm]
  show (t.joins.filter (·.id ≠ record.id) ++ [record].flatMap (·.mirrorsOn t.id)).filter
    (fun j => j.id = record.id && j.source ≠ t.id) = _
  rw [List.filter_append, hkept, List.flatMap_singleton, hmade, List.nil_append]

/-- **A record on a column, and its mirror on the table that it refers to, are all that there is of
the join.** -/
theorem foreignKeyAt_of_tables (hv : schema.Valid) (hnv : next.Valid)
    (htables : next.tables = schema.tables.map fun t =>
      t.rejoined record.id [record] (columns t))
    {holder referenced : Table} (hholder : holder ∈ schema.tables) (hs : record.source = holder.id)
    (hreferenced : referenced ∈ schema.tables) {k r : Column} (hk : k ∈ columns holder)
    (hcarries : k.foreignKey = some record) (hr : r ∈ columns referenced)
    (ht : record.target = some ⟨referenced.id, some r.id⟩) (hdataType : k.dataType = r.dataType) :
    next.ForeignKeyAt record (holder.rejoined record.id [record] (columns holder)) k
      (referenced.rejoined record.id [record] (columns referenced)) r where
  holder := ⟨htables ▸ List.mem_map.mpr ⟨holder, hholder, rfl⟩, hk⟩
  referenced := ⟨htables ▸ List.mem_map.mpr ⟨referenced, hreferenced, rfl⟩, hr⟩
  ends := ⟨hs, ht⟩
  dataType := hdataType
  owner := by
    have hmem : holder.rejoined record.id [record] (columns holder) ∈ next.tables :=
      htables ▸ List.mem_map.mpr ⟨holder, hholder, rfl⟩
    exact filter_key hnv.ownerIds (mem_owningJoins_of_column hmem hk hcarries)
  pending := by
    refine List.findSome?_eq_none_iff.mpr fun t hmem => ?_
    rw [htables] at hmem
    obtain ⟨old, -, rfl⟩ := List.mem_map.mp hmem
    rw [Option.map_eq_none_iff, List.find?_eq_none]
    intro j hj hpending
    simp only [Bool.and_eq_true, decide_eq_true_eq] at hpending
    obtain ⟨⟨-, hne⟩, rfl⟩ := Join.mem_mirrorsOn.mp (Table.mem_joins_rejoined hj hpending.1)
    exact hne hpending.2.symm
  mirrors := by
    rw [mirrors_rejoined htables]
    have hpeer : record.peer? = some referenced.id := by rw [Join.peer?, ht]; rfl
    by_cases he : referenced.id = holder.id
    · refine Eq.trans (List.flatMap_eq_nil_iff.mpr fun t _ => ?_) (if_pos he).symm
      rw [Join.mirrorsOn_self (hpeer.trans (congrArg some (he.trans hs.symm)))]
      rfl
    · refine Eq.trans (flatMap_of_key hv.ids hreferenced fun t _ hne => ?_)
        (Eq.trans ?_ (if_neg he).symm)
      · rw [Join.mirrorsOn, if_neg fun h => hne (Option.some.inj (h.1.symm.trans hpeer))]
        rfl
      · rw [Join.mirrorsOn, if_pos ⟨hpeer, hs ▸ he⟩]
        rfl

end

/-! ## Configuring -/

/-- A join has one owning record, so it is not both pending and configured. -/
theorem foreignKey?_of_pending? (hv : schema.Valid) {join : JoinId} {t : Table} {record : Join}
    (h : schema.pending? join = some (t, record)) : schema.foreignKey? join = none := by
  cases hf : schema.foreignKey? join with
  | none => rfl
  | some found =>
      obtain ⟨hft, hfc, hcarries⟩ := foreignKey?_eq_some hf
      obtain ⟨hpending, hpid⟩ := owned_of_pending? h
      have hnone := uncarried_of_pending hv hpending rfl hft hfc
      exact absurd (hpid ▸ hcarries) (by simp [hnone])

section

variable {join : JoinId} {config : JoinConfig} {holder referenced : Table} {key : Column}

/-- What is left to say of a configured join when its tables are known. -/
theorem configures_of_tables (hv : schema.Valid) (hnv : next.Valid) {record : Join}
    (hrecord : record = config.record join holder.id referenced.id key.id)
    {columns : Table → List Column}
    (htables : next.tables = schema.tables.map fun t => t.rejoined join [record] (columns t))
    (hothers : ∀ t, t.id ≠ holder.id → columns t = t.columns)
    (hholder : holder ∈ schema.tables) (hreferenced : referenced ∈ schema.tables) {k r : Column}
    (hk : k ∈ columns holder) (hcarries : k.foreignKey = some record)
    (hr : r ∈ columns referenced) (hrid : r.id = key.id) (hdataType : k.dataType = r.dataType)
    (hkept : ∀ t c, schema.foreignKey? join = some (t, c) →
      holder.id = t.id ∧ k.id = c.id ∧ referenced.id = config.target.table ∧
      columns holder = t.columns.map fun d => if d.id = c.id then
        { d with dataType := r.dataType, foreignKey := k.foreignKey } else d)
    (hmade : ∀ t pending, schema.pending? join = some (t, pending) →
      (holder.id, referenced.id) = config.ends t.id ∧
      ∃ before, schema.table? holder.id = some before ∧ columns holder = before.columns ++ [k] ∧
        k.id ∉ before.columns.map (·.id) ∧ k.name ∉ before.columns.map (·.name)) :
    ∃ H R, H.id = holder.id ∧ R.id = referenced.id ∧
      schema.Configures next join config H k R r := by
  have hsame : config.record join holder.id referenced.id r.id = record := by rw [hrid, hrecord]
  have hid : record.id = join := by rw [hrecord]; rfl
  refine ⟨holder.rejoined join [record] (columns holder),
    referenced.rejoined join [record] (columns referenced), rfl, rfl, ?_, ?_, hkept, hmade⟩
  · subst hid
    refine hsame.symm ▸ foreignKeyAt_of_tables hv hnv htables hholder (by rw [hrecord]; rfl)
      hreferenced hk hcarries hr ?_ hdataType
    rw [hrecord, hrid]
    rfl
  · rw [htables]
    refine List.map_congr_left fun t ht => ?_
    show t.rejoined join [record] (columns t) =
      t.rejoined join [config.record join holder.id referenced.id r.id]
        (if t.id = holder.id then columns holder else t.columns)
    rw [hsame]
    refine congrArg _ ?_
    by_cases ht' : t.id = holder.id
    · rw [if_pos ht', eq_of_key_eq hv.ids ht hholder ht']
    · rw [if_neg ht', hothers t ht']

/-- **A join that has a column keeps it.** -/
theorem configures_onColumn (hv : schema.Valid) (hnv : next.Valid) {column : Column}
    (hfound : schema.foreignKey? join = some (holder, column))
    (hreferenced : referenced ∈ schema.tables) (hkey : key ∈ referenced.columns)
    (hchosen : referenced.id = config.target.table) {record : Join}
    (hrecord : record = config.record join holder.id referenced.id key.id)
    (hnext : next = ((schema.clear record.id).modifyTable record.source
      (·.setForeignKey column.id key.dataType record)).addMirror record) :
    ∃ H k R r, H.id = holder.id ∧ k.id = column.id ∧ R.id = referenced.id ∧ r.id = key.id ∧
      schema.Configures next join config H k R r := by
  obtain ⟨hholder, hcolumn, -⟩ := foreignKey?_eq_some hfound
  have hs : record.source = holder.id := by rw [hrecord]; rfl
  have hid : record.id = join := by rw [hrecord]; rfl
  have ht : record.target = some ⟨referenced.id, some key.id⟩ := by rw [hrecord]; rfl
  let place (c : Column) : Column := if c.id = column.id then
    { c with dataType := key.dataType, foreignKey := some record } else c
  have hplace : ∀ t ∈ schema.tables, (t.setForeignKey column.id key.dataType record).columns =
      t.columns.map place := fun t ht => modifyFirst_eq_map (hv.tables t ht).columnIds column.id
  let columns (t : Table) : List Column :=
    if t.id = record.source then (t.setForeignKey column.id key.dataType record).columns
    else t.columns
  have htables : next.tables = schema.tables.map fun t => t.rejoined join [record] (columns t) :=
    hid ▸ hnext ▸ tables_onColumn hv.ids ht column.id key.dataType
  have hk : place column = { column with dataType := key.dataType, foreignKey := some record } :=
    if_pos rfl
  -- the column referred to may be the foreign key itself
  obtain ⟨r, hr, hrid, hrtype⟩ : ∃ r ∈ columns referenced,
      r.id = key.id ∧ r.dataType = key.dataType := by
    by_cases he : referenced.id = record.source
    · have hcolumns : columns referenced = referenced.columns.map place :=
        (if_pos he).trans (hplace referenced hreferenced)
      refine ⟨place key, hcolumns ▸ List.mem_map.mpr ⟨key, hkey, rfl⟩, ?_, ?_⟩
      · unfold place
        split <;> rfl
      · unfold place
        split <;> rfl
    · have hcolumns : columns referenced = referenced.columns := if_neg he
      exact ⟨key, hcolumns ▸ hkey, rfl, rfl⟩
  have hplaced : columns holder = holder.columns.map place :=
    (if_pos hs.symm).trans (hplace holder hholder)
  have hmem : place column ∈ columns holder :=
    hplaced ▸ List.mem_map.mpr ⟨column, hcolumn, rfl⟩
  have hkept : ∀ t c, schema.foreignKey? join = some (t, c) →
      holder.id = t.id ∧ (place column).id = c.id ∧ referenced.id = config.target.table ∧
      columns holder = t.columns.map fun d => if d.id = c.id then
        { d with dataType := r.dataType, foreignKey := (place column).foreignKey } else d := by
    intro t c hf
    cases hfound.symm.trans hf
    refine ⟨rfl, by rw [hk], hchosen, ?_⟩
    rw [hplaced, hk, hrtype]
  obtain ⟨H, R, hH, hR, hconfigures⟩ := configures_of_tables hv hnv hrecord htables
    (fun t hne => if_neg fun he => hne (he.trans hs)) hholder hreferenced hmem (by rw [hk]) hr hrid
    (by rw [hk, hrtype]) hkept
    fun t pending hp => by cases (foreignKey?_of_pending? hv hp).symm.trans hfound
  exact ⟨H, place column, R, r, hH, by rw [hk], hR, hrid, hconfigures⟩

/-- **A join that is pending gets a new column**, whose name is free. -/
theorem configures_onNewColumn (hv : schema.Valid) (hnv : next.Valid)
    (hnone : schema.foreignKey? join = none)
    (hholder : schema.table? holder.id = some holder)
    (hreferenced : referenced ∈ schema.tables) (hkey : key ∈ referenced.columns)
    (hends : ∀ t pending, schema.pending? join = some (t, pending) →
      (holder.id, referenced.id) = config.ends t.id) {record : Join}
    (hrecord : record = config.record join holder.id referenced.id key.id) {id : ColumnId}
    {wanted : String}
    (hnext : next = ((schema.strip record.id).modifyTable record.source fun t =>
      t.addColumn (Column.foreign id record.source (t.freeColumnName wanted) key.dataType
        record)).addMirror record) :
    ∃ H k R r, H.id = holder.id ∧ k.id = id ∧ R.id = referenced.id ∧ r.id = key.id ∧
      schema.Configures next join config H k R r := by
  have hmem := (mem_of_table? hholder).1
  have hs : record.source = holder.id := by rw [hrecord]; rfl
  have hid : record.id = join := by rw [hrecord]; rfl
  have ht : record.target = some ⟨referenced.id, some key.id⟩ := by rw [hrecord]; rfl
  let made (t : Table) : Column :=
    Column.foreign id record.source (t.freeColumnName wanted) key.dataType record
  have hmade : ∀ t ∈ schema.tables, made (t.strip record.id) = made t := by
    intro t ht
    have hcolumns : (t.strip record.id).columns = t.columns :=
      Table.columns_strip_of_uncarried (foreignKey?_eq_none (hid.symm ▸ hnone) t ht)
    have hname : (t.strip record.id).freeColumnName wanted = t.freeColumnName wanted := by
      rw [Table.freeColumnName, hcolumns]
      rfl
    show Column.foreign id record.source ((t.strip record.id).freeColumnName wanted) _ _ = _
    rw [hname]
  let columns (t : Table) : List Column :=
    if t.id = record.source then t.columns ++ [made t] else t.columns
  have htables : next.tables = schema.tables.map fun t => t.rejoined join [record] (columns t) :=
    hid ▸ hnext ▸ tables_onNewColumn hv.ids ht (hid.symm ▸ hnone) hmade
  have hplaced : columns holder = holder.columns ++ [made holder] := if_pos hs.symm
  have hk : made holder ∈ columns holder :=
    hplaced ▸ List.mem_append_right _ List.mem_cons_self
  have hr : key ∈ columns referenced := by
    unfold columns
    split
    · exact List.mem_append_left _ hkey
    · exact hkey
  -- the columns that come out are apart, so the new one is new
  have hnew : id ∉ holder.columns.map (·.id) := by
    have hout : holder.rejoined join [record] (columns holder) ∈ next.tables :=
      htables ▸ List.mem_map.mpr ⟨holder, hmem, rfl⟩
    have hapart : ((columns holder).map (·.id)).Nodup := (hnv.tables _ hout).columnIds
    rw [hplaced, List.map_append, List.nodup_append] at hapart
    exact fun hin => hapart.2.2 id hin id (List.mem_singleton.mpr rfl) rfl
  obtain ⟨H, R, hH, hR, hconfigures⟩ := configures_of_tables hv hnv hrecord htables
    (fun t hne => if_neg fun he => hne (he.trans hs)) hmem hreferenced hk rfl hr rfl rfl
    (fun t c hf => by cases hnone.symm.trans hf)
    fun t pending hp =>
      ⟨hends t pending hp, holder, hholder, hplaced, hnew, freeName_not_mem _ _⟩
  exact ⟨H, made holder, R, key, hH, rfl, hR, rfl, hconfigures⟩

theorem column_withForeignKey (schema : Schema) (ids : IdSupply) (join : JoinId)
    (config : JoinConfig) (holder : TableId) (referenced : Table) (key : Column) :
    (schema.withForeignKey ids join config holder referenced key).2 =
      ((schema.foreignKey? join).map (·.2.id)).getD (ids.columnId 0) := by
  unfold withForeignKey placeForeignKey
  cases schema.foreignKey? join <;> rfl

/-- **A join that is configured has one shape**, the one that `Configures` describes, and refers to
the column that was chosen. -/
theorem configures_chosen (hv : schema.Valid) {ids : IdSupply} {id : TableId} {column : ColumnId}
    (h : schema.configureJoin ids join config = .ok (next, .foreignKey id column)) :
    ∃ H k R r, (H.id = id ∧ k.id = column) ∧ schema.Configures next join config H k R r ∧
      (∃ referenced key, schema.table? R.id = some referenced ∧
        config.key? referenced = some key ∧ r.id = key.id) ∧
      (schema.foreignKey? join = none → column = ids.columnId 0) := by
  obtain ⟨chosen, declaring, hchosen, -, hdeclaring, hbuilt⟩ :=
    (configureJoin_iff (Or.inl ⟨_, rfl⟩)).mp h
  rcases hbuilt with ⟨-, hbuilt⟩ | ⟨-, holderId, referenced, key, hends, hpeer, hkey, hbuilt⟩
  · obtain ⟨built, -, hr⟩ := bind_eq_ok.mp hbuilt
    cases hr
  obtain ⟨hnv, hnext, hplace⟩ := settled_beside hbuilt
  obtain ⟨hid, hcolumn⟩ := Configured.foreignKey.inj hplace
  obtain ⟨hholder, hkeeps⟩ := configuredEnds_holder (hchosen ▸ rfl) hdeclaring hends
  obtain ⟨holder, hholder⟩ := Option.isSome_iff_exists.mp hholder
  obtain ⟨hmem, rfl⟩ := mem_of_table? hholder
  have hreferenced := (mem_of_table? hpeer).1
  have hkeymem := mem_of_key? hkey
  rw [column_withForeignKey] at hcolumn
  rw [withForeignKey, placeForeignKey_eq rfl] at hnext
  rw [configuredEnds] at hends
  cases hf : schema.foreignKey? join with
  | some found =>
      obtain ⟨owner, carrier⟩ := found
      rw [hf] at hnext hends hcolumn
      have howner : owner = holder :=
        eq_of_key_eq hv.ids (foreignKey?_eq_some hf).1 hmem (hkeeps owner carrier hf).symm
      subst howner
      obtain ⟨H, k, R, r, hH, hk, hR, hr, hconfigures⟩ := configures_onColumn hv hnv hf hreferenced
        hkeymem (Prod.mk.inj hends).2.symm rfl hnext
      refine ⟨H, k, R, r, ⟨hH.trans hid.symm, hk.trans hcolumn.symm⟩, hconfigures,
        ⟨referenced, key, hR ▸ hpeer, hkey, hr⟩, fun h => ?_⟩
      cases h
  | none =>
      rw [hf] at hnext hends hcolumn
      have hrule : ∀ t pending, schema.pending? join = some (t, pending) →
          (holder.id, referenced.id) = config.ends t.id := by
        intro t pending hp
        rw [declaring?, hf, hp] at hdeclaring
        obtain rfl : t.id = declaring := Option.some.inj hdeclaring
        rw [JoinConfig.ends, ← hends]
        by_cases hk : config.kind = .oneToMany <;> simp [hk]
      obtain ⟨H, k, R, r, hH, hk, hR, hr, hconfigures⟩ := configures_onNewColumn hv hnv hf hholder
        hreferenced hkeymem hrule rfl hnext
      exact ⟨H, k, R, r, ⟨hH.trans hid.symm, hk.trans hcolumn.symm⟩, hconfigures,
        ⟨referenced, key, hR ▸ hpeer, hkey, hr⟩, fun _ => hcolumn⟩

theorem configures_of_configureJoin (hv : schema.Valid) {ids : IdSupply} {id : TableId}
    {column : ColumnId}
    (h : schema.configureJoin ids join config = .ok (next, .foreignKey id column)) :
    ∃ H k R r, H.id = id ∧ k.id = column ∧ schema.Configures next join config H k R r ∧
      (schema.foreignKey? join = none → column = ids.columnId 0) := by
  obtain ⟨H, k, R, r, ⟨hH, hk⟩, hconfigures, -, hcolumn⟩ := configures_chosen hv h
  exact ⟨H, k, R, r, hH, hk, hconfigures, hcolumn⟩

/-! ## When a pending join can be configured -/

/-- There is a column that a pending join may refer to: the one that was named, or a key. -/
structure CanRefer (schema : Schema) (config : JoinConfig) (declaring : TableId) : Prop where
  chosen : ∃ chosen, schema.table? config.target.table = some chosen ∧
    ∀ c, config.target.column = some c → ∃ d ∈ chosen.columns, d.id = c
  key : ∃ R, schema.table? (config.ends declaring).2 = some R ∧
    ((R.id = config.target.table ∧ config.target.column.isSome = true) ∨
      ∃ c ∈ R.columns, c.isKey = true)

/-- Where the chosen table has the column that was named, that is all that the choice asks of the
table referred to. -/
theorem isSome_key?_iff (hnamed : ∀ c, config.target.column = some c →
    referenced.id = config.target.table → ∃ d ∈ referenced.columns, d.id = c) :
    (config.key? referenced).isSome = true ↔
      (referenced.id = config.target.table ∧ config.target.column.isSome = true) ∨
        ∃ c ∈ referenced.columns, c.isKey = true := by
  unfold JoinConfig.key?
  split
  · rename_i h
    rw [Bool.and_eq_true, decide_eq_true_eq] at h
    obtain ⟨c, hc⟩ := Option.isSome_iff_exists.mp h.2
    refine iff_of_true ?_ (Or.inl h)
    rw [hc]
    exact Table.isSome_column?_iff.mpr (hnamed c hc h.1)
  · rename_i h
    rw [Bool.and_eq_true, decide_eq_true_eq] at h
    rw [or_iff_right h, Table.keyColumn?, List.find?_isSome]

theorem configuredEnds_of_pending {declaring : TableId} (h : schema.foreignKey? join = none) :
    schema.configuredEnds join config declaring = config.ends declaring := by
  rw [configuredEnds, JoinConfig.ends, h]
  by_cases hk : config.kind = .oneToMany <;> simp [hk]

/-- **A pending join can be configured just if there is a column that it may refer to**, unless its
own column would be the first of a table. -/
theorem configureJoin_isOk_iff (hv : schema.Valid) {ids : IdSupply} (hfresh : ids.FreshFor schema)
    (hkind : config.kind ≠ .manyToMany) {t : Table} {record : Join}
    (hpending : schema.pending? join = some (t, record))
    (hcolumns : ∀ H, schema.table? (config.ends t.id).1 = some H → H.columns ≠ []) :
    (∃ next id column, schema.configureJoin ids join config = .ok (next, .foreignKey id column)) ↔
      schema.CanRefer config t.id := by
  have hnone := foreignKey?_of_pending? hv hpending
  have hdeclaring : schema.declaring? join = some t.id := by
    rw [declaring?, hnone, hpending]
    rfl
  constructor
  · rintro ⟨next, id, column, h⟩
    obtain ⟨chosen, declaring, hchosen, hnamed, hd, hbuilt⟩ :=
      (configureJoin_iff (Or.inl ⟨_, rfl⟩)).mp h
    obtain rfl : t.id = declaring := Option.some.inj (hdeclaring.symm.trans hd)
    rcases hbuilt with ⟨hmany, -⟩ | ⟨-, holder, referenced, key, hends, hpeer, hkey, -⟩
    · exact absurd hmany hkind
    rw [configuredEnds_of_pending hnone] at hends
    have hnamed : ∀ c, config.target.column = some c → ∃ d ∈ chosen.columns, d.id = c :=
      fun c hc => Table.isSome_column?_iff.mp (hnamed c hc)
    refine ⟨⟨chosen, hchosen, hnamed⟩, referenced, by rw [hends]; exact hpeer, ?_⟩
    refine (isSome_key?_iff fun c hc he => ?_).mp (hkey ▸ rfl)
    rw [he, hchosen] at hpeer
    exact Option.some.inj hpeer ▸ hnamed c hc
  · rintro ⟨⟨chosen, hchosen, hnamed⟩, referenced, hpeer, hrefers⟩
    obtain ⟨-, hid⟩ := mem_of_table? hpeer
    obtain ⟨key, hkey⟩ := Option.isSome_iff_exists.mp ((isSome_key?_iff fun c hc he => by
      rw [← hid, he, hchosen] at hpeer
      exact Option.some.inj hpeer ▸ hnamed c hc).mpr hrefers)
    have hends : schema.configuredEnds join config t.id =
        ((config.ends t.id).1, referenced.id) := by
      rw [configuredEnds_of_pending hnone, hid]
    obtain ⟨hholder, hfk⟩ := configuredEnds_holder (hchosen ▸ rfl) hdeclaring hends
    obtain ⟨H, hH⟩ := Option.isSome_iff_exists.mp hholder
    -- what would be built is valid, since its table has a key already
    have htakes : schema.TakesForeignKey join (config.ends t.id).1 key.dataType := by
      rw [TakesForeignKey, hnone]
      exact ⟨H, hH, hcolumns H hH⟩
    have hvalid := (withForeignKey_valid_iff hv hfresh hkind (hid.symm ▸ hpeer) hkey hholder
      hfk).mpr htakes
    let made := schema.withForeignKey ids join config (config.ends t.id).1 referenced key
    refine ⟨made.1, (config.ends t.id).1, made.2, (configureJoin_iff (Or.inl ⟨_, rfl⟩)).mpr
      ⟨chosen, t.id, hchosen, fun c hc => Table.isSome_column?_iff.mpr (hnamed c hc), hdeclaring,
        Or.inr ⟨hkind, _, referenced, key, hends, hid.symm ▸ hpeer, hkey, ?_⟩⟩⟩
    rw [settle_of_valid hvalid]
    rfl

/-- **Configuring a join leaves one foreign key of it and nothing else**, and a pending join can be
configured whenever there is a column to refer to. -/
theorem configureJoin_shape (hv : schema.validate = .ok ()) (ids : IdSupply)
    (hkind : config.kind ≠ .manyToMany) :
    (∀ next id column,
      schema.configureJoin ids join config = .ok (next, .foreignKey id column) →
        ∃ H k R r, H.id = id ∧ k.id = column ∧ schema.Configures next join config H k R r ∧
          (schema.foreignKey? join = none → ids.FreshFor schema →
            ∀ t ∈ schema.tables, column ∉ t.columns.map (·.id))) ∧
    ∀ t record, schema.pending? join = some (t, record) → ids.FreshFor schema →
      (∀ H, schema.table? (config.ends t.id).1 = some H → H.columns ≠ []) →
        ((∃ next id column,
          schema.configureJoin ids join config = .ok (next, .foreignKey id column)) ↔
            schema.CanRefer config t.id) := by
  have hv := validate_iff.mp hv
  refine ⟨fun next id column h => ?_, fun t record hpending hfresh =>
    configureJoin_isOk_iff hv hfresh hkind hpending⟩
  obtain ⟨H, k, R, r, hH, hk, hconfigures, hcolumn⟩ := configures_of_configureJoin hv h
  refine ⟨H, k, R, r, hH, hk, hconfigures, fun hnone hfresh t ht => ?_⟩
  rw [hcolumn hnone]
  exact hfresh.columnId_notMem 0 ht

end

/-- The users of posts are to be many, so the column goes to the posts. -/
theorem postsOfUsers_shape : postsOfUsers.validate = .ok () ∧ JoinKind.oneToMany ≠ .manyToMany ∧
    ∃ next id column, postsOfUsers.configureJoin ⟨"j", 0⟩ ⟨"u->p"⟩ (configTo ⟨"p"⟩ .oneToMany) =
      .ok (next, .foreignKey id column) ∧ id = ⟨"p"⟩ ∧
      ∃ H k R r, H.id = id ∧ k.id = column ∧
        postsOfUsers.Configures next ⟨"u->p"⟩ (configTo ⟨"p"⟩ .oneToMany) H k R r := by
  have hvalidate : postsOfUsers.validate = .ok () := ok_of_toOption (by decide +kernel)
  have hmade : (postsOfUsers.configureJoin ⟨"j", 0⟩ ⟨"u->p"⟩
      (configTo ⟨"p"⟩ .oneToMany)).toOption.map (·.2) =
        some (.foreignKey ⟨"p"⟩ ⟨"j000000000000"⟩) := by decide +kernel
  obtain ⟨⟨next, configured⟩, hbuilt, hconfigured⟩ := Option.map_eq_some_iff.mp hmade
  dsimp only at hconfigured
  subst hconfigured
  have hbuilt := ok_of_toOption hbuilt
  obtain ⟨H, k, R, r, hH, hk, hconfigures, -⟩ :=
    (configureJoin_shape hvalidate ⟨"j", 0⟩ (by decide)).1 next _ _ hbuilt
  exact ⟨hvalidate, by decide, next, _, _, hbuilt, rfl, H, k, R, r, hH, hk, hconfigures⟩

end Schema

end ErModel
