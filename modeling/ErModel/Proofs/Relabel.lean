import ErModel.Proofs.Placement

/-!
# Other ids for the same schema

Ids mean nothing by themselves: a schema whose tables, columns and joins get other ids is as good as
it was, as long as what was told apart still is. Tables have to stay distinct among each other, the
columns of one table among each other, and joins among each other.
-/

namespace ErModel

/-- New ids for tables, columns and joins. -/
structure Relabelling where
  table : TableId → TableId
  column : ColumnId → ColumnId
  join : JoinId → JoinId

namespace Relabelling

/-- A record under the new ids. -/
def record (names : Relabelling) (join : Join) : Join :=
  { join with
    id := names.join join.id
    source := names.table join.source
    target := join.target.map fun target =>
      ⟨names.table target.table, target.column.map names.column⟩ }

/-- A column under the new ids. -/
def onColumn (names : Relabelling) (column : Column) : Column :=
  { column with
    id := names.column column.id
    tableId := names.table column.tableId
    foreignKey := column.foreignKey.map names.record }

/-- A table under the new ids. -/
def onTable (names : Relabelling) (table : Table) : Table :=
  { table with
    id := names.table table.id
    primaryKey := table.primaryKey.map names.column
    columns := table.columns.map names.onColumn
    joins := table.joins.map names.record }

/-- A schema under the new ids. -/
def apply (names : Relabelling) (schema : Schema) : Schema := schema.mapTables names.onTable

/-- An owning record under the new ids, with what holds it. -/
def onOwned (names : Relabelling) (owned : OwnedJoin) : OwnedJoin :=
  ⟨names.onTable owned.holder, owned.column.map names.onColumn, names.record owned.join⟩

/-- A record beside its table, under the new ids. -/
def beside (names : Relabelling) (o : TableId × Join) : TableId × Join :=
  (names.table o.1, names.record o.2)

/-- Tables that have different ids have different new ids. -/
def TellsTables (names : Relabelling) (schema : Schema) : Prop :=
  ∀ t ∈ schema.tables, ∀ u ∈ schema.tables, names.table t.id = names.table u.id → t.id = u.id

/-- What has different ids in the schema has different new ids. -/
structure Faithful (names : Relabelling) (schema : Schema) : Prop where
  tables : names.TellsTables schema
  columns : ∀ t ∈ schema.tables, ∀ c ∈ t.columns, ∀ d ∈ t.columns,
    names.column c.id = names.column d.id → c.id = d.id
  joins : ∀ o ∈ schema.owners, ∀ p ∈ schema.owners, names.join o.2.id = names.join p.2.id →
    o.2.id = p.2.id

/-- A record asks for the same mirror under the new ids. -/
theorem wantedMirror?_beside (names : Relabelling) {o : TableId × Join}
    (h : ∀ target, o.2.target = some target →
      (names.table target.table = names.table o.1 ↔ target.table = o.1)) :
    wantedMirror? (names.beside o) = (wantedMirror? o).map names.beside := by
  obtain ⟨id, join⟩ := o
  cases htarget : join.target with
  | none => simp [wantedMirror?, Relabelling.beside, Relabelling.record, htarget]
  | some target =>
      have hnew : (names.record join).target =
          some ⟨names.table target.table, target.column.map names.column⟩ := by
        rw [Relabelling.record, htarget]
        rfl
      by_cases he : target.table = id
      · rw [Schema.wantedMirror?_self htarget he]
        exact Schema.wantedMirror?_self hnew ((h target htarget).mpr he)
      · rw [Schema.wantedMirror?_other htarget he]
        exact Schema.wantedMirror?_other hnew fun hsame => he ((h target htarget).mp hsame)

end Relabelling

namespace Schema

variable {schema : Schema} {names : Relabelling}

/-- The table that declares a join exists, also for its mirror. -/
theorem Valid.source_mem (hv : schema.Valid) {t : Table} (ht : t ∈ schema.tables) {join : Join}
    (hj : join ∈ t.joins) : ∃ u ∈ schema.tables, u.id = join.source := by
  obtain ⟨owned, howned, -, hsource⟩ := owner_of_record hv ht hj
  exact ⟨owned.holder, (mem_owningJoins howned).1, hsource.symm⟩

/-- A record is pending or a mirror under the new ids as it was before. -/
theorem source_relabel (hv : schema.Valid)
    (hn : names.TellsTables schema) {t : Table} (ht : t ∈ schema.tables) {join : Join}
    (hj : join ∈ t.joins) :
    (names.record join).source = (names.onTable t).id ↔ join.source = t.id := by
  obtain ⟨u, hu, hid⟩ := hv.source_mem ht hj
  constructor
  · intro he
    rw [← hid]
    exact hn u hu t ht (hid ▸ he)
  · intro he
    exact congrArg names.table he

theorem pendingJoins_relabel (hv : schema.Valid) (hn : names.TellsTables schema) {t : Table}
    (ht : t ∈ schema.tables) :
    (names.onTable t).pendingJoins = t.pendingJoins.map names.record := by
  rw [Table.pendingJoins, Table.pendingJoins]
  show (t.joins.map names.record).filter _ = _
  rw [List.filter_map]
  refine congrArg _ (List.filter_congr fun join hj => ?_)
  exact decide_eq_decide.mpr (source_relabel hv hn ht hj)

theorem owningJoins_relabel (hv : schema.Valid) (hn : names.TellsTables schema) :
    (names.apply schema).owningJoins = schema.owningJoins.map names.onOwned := by
  have htable : ∀ t ∈ schema.tables,
      (names.onTable t).ownedJoins = t.ownedJoins.map names.onOwned := by
    intro t ht
    rw [Table.ownedJoins, Table.ownedJoins, List.map_append]
    congr 1
    · rw [Relabelling.onTable, List.filterMap_map, List.map_filterMap]
      congr 1
      funext c
      show ((names.onColumn c).foreignKey.map _) = _
      cases hf : c.foreignKey with
      | none => simp [Relabelling.onColumn, hf]
      | some join => simp [Relabelling.onColumn, Relabelling.onOwned, Relabelling.onTable, hf]
    · rw [pendingJoins_relabel hv hn ht, List.map_map, List.map_map]
      rfl
  rw [owningJoins, owningJoins, Relabelling.apply, mapTables, List.flatMap_map, List.map_flatMap]
  rw [List.flatMap_def, List.flatMap_def, List.map_congr_left htable]

theorem owners_relabel (hv : schema.Valid) (hn : names.TellsTables schema) :
    (names.apply schema).owners = schema.owners.map names.beside := by
  rw [owners_eq, owners_eq, owningJoins_relabel hv hn, List.map_map, List.map_map]
  rfl

theorem mirrorRecords_relabel (hv : schema.Valid) (hn : names.TellsTables schema) :
    (names.apply schema).mirrorRecords = schema.mirrorRecords.map names.beside := by
  rw [mirrorRecords, mirrorRecords, Relabelling.apply, collect_mapTables, collect, collect,
    List.map_flatMap, List.flatMap_def, List.flatMap_def]
  refine congrArg _ (List.map_congr_left fun t ht => ?_)
  have hmirrors : (names.onTable t).mirrors = t.mirrors.map names.record := by
    rw [Table.mirrors, Table.mirrors]
    show (t.joins.map names.record).filter _ = _
    rw [List.filter_map]
    refine congrArg _ (List.filter_congr fun join hj => ?_)
    exact decide_eq_decide.mpr (not_congr (source_relabel hv hn ht hj))
  rw [hmirrors, List.map_map, List.map_map]
  rfl

/-- **Mirrors stay in their places under new ids.** -/
theorem placed_relabel (hv : schema.Valid) (h : schema.MirrorsPlaced)
    (hn : names.TellsTables schema) : (names.apply schema).MirrorsPlaced := by
  have hmap : MirrorsMatch (schema.owners.map names.beside)
      (schema.mirrorRecords.map names.beside) := by
    refine h.map (fun o ho => ?_) (fun o ho => ?_)
    · have := h.targets o ho
      rwa [← Option.isSome_map (f := fun target : JoinTarget =>
        (⟨names.table target.table, target.column.map names.column⟩ : JoinTarget))] at this
    · obtain ⟨owned, howned, rfl⟩ := List.mem_map.mp (owners_eq schema ▸ ho)
      refine names.wantedMirror?_beside fun target htarget => ?_
      obtain ⟨peer, hpeer, -⟩ := (hv.owners owned howned).target target htarget
      obtain ⟨hmem, hid⟩ := mem_of_table? hpeer
      rw [← hid]
      exact ⟨hn peer hmem _ (mem_owningJoins howned).1, congrArg names.table⟩
  rw [MirrorsPlaced, owners_relabel hv hn, mirrorRecords_relabel hv hn]
  exact hmap

theorem ids_relabel (hids : (schema.tables.map (·.id)).Nodup) (hn : names.TellsTables schema) :
    ((names.apply schema).tables.map (·.id)).Nodup := by
  rw [Relabelling.apply, mapTables, List.map_map]
  exact nodup_map_key Table.id names.table hids hn

theorem table?_relabel (hids : (schema.tables.map (·.id)).Nodup) (hn : names.TellsTables schema)
    {t : Table} (ht : t ∈ schema.tables) :
    (names.apply schema).table? (names.table t.id) = some (names.onTable t) :=
  table?_of_mem (t := names.onTable t) (ids_relabel hids hn) (List.mem_map.mpr ⟨t, ht, rfl⟩)

theorem column?_relabel {t : Table} {id : ColumnId} (h : (t.column? id).isSome = true) :
    ((names.onTable t).column? (names.column id)).isSome = true := by
  obtain ⟨c, hc, hid⟩ := List.find?_isSome.mp h
  refine List.find?_isSome.mpr ⟨names.onColumn c, List.mem_map.mpr ⟨c, hc, rfl⟩, ?_⟩
  have hid : c.id = id := by simpa using hid
  simp [Relabelling.onColumn, hid]

theorem sound_relabel {t : Table} (h : t.Sound)
    (hn : ∀ c ∈ t.columns, ∀ d ∈ t.columns, names.column c.id = names.column d.id → c.id = d.id) :
    (names.onTable t).Sound where
  columnIds := by
    rw [Relabelling.onTable, List.map_map]
    exact nodup_map_key Column.id names.column h.columnIds hn
  home := by
    intro c hc
    obtain ⟨d, hd, rfl⟩ := List.mem_map.mp hc
    exact congrArg names.table (h.home d hd)
  faultless := by
    intro c hc
    obtain ⟨d, hd, rfl⟩ := List.mem_map.mp hc
    exact h.faultless d hd
  key := by
    rcases h.key with hnil | ⟨key, hkey, hprimary⟩
    · left
      rw [Relabelling.onTable, hnil]
      rfl
    · right
      refine ⟨names.onColumn key, ?_, ?_⟩
      · show (t.columns.map names.onColumn).filter _ = _
        rw [List.filter_map]
        exact congrArg (List.map _) hkey
      · show t.primaryKey.map names.column = _
        rw [hprimary]
        rfl

/-- **A valid schema is valid under new ids.** -/
theorem valid_relabel (hv : schema.Valid) (hp : schema.MirrorsPlaced)
    (hn : names.Faithful schema) : (names.apply schema).Valid := by
  refine valid_of_placed (ids_relabel hv.ids hn.tables) ?_ ?_ ?_ ?_ (placed_relabel hv hp hn.tables)
  · rw [Relabelling.apply, mapTables, List.map_map]
    exact hv.names
  · intro t ht
    obtain ⟨old, hold, rfl⟩ := List.mem_map.mp ht
    exact sound_relabel (hv.tables old hold) (hn.columns old hold)
  · intro o ho
    rw [owningJoins_relabel hv hn.tables] at ho
    obtain ⟨old, hold, rfl⟩ := List.mem_map.mp ho
    have hs := hv.owners old hold
    refine ⟨congrArg names.table hs.source, ?_, ?_⟩
    · intro target htarget
      obtain ⟨oldTarget, holdTarget, rfl⟩ := Option.map_eq_some_iff.mp htarget
      obtain ⟨peer, hpeer, hcolumn⟩ := hs.target oldTarget holdTarget
      obtain ⟨hmem, hid⟩ := mem_of_table? hpeer
      refine ⟨names.onTable peer, hid ▸ table?_relabel hv.ids hn.tables hmem, fun column hc => ?_⟩
      obtain ⟨oldColumn, holdColumn, rfl⟩ := Option.map_eq_some_iff.mp hc
      exact column?_relabel (hcolumn oldColumn holdColumn)
    · intro hconfigured
      have hfits := hs.fits (by simpa [Relabelling.onOwned, OwnedJoin.isConfigured] using hconfigured)
      rw [Join.fitsForeignKey, Bool.and_eq_true] at hfits ⊢
      refine ⟨?_, hfits.2⟩
      show (old.join.target.map _).any _ = true
      rw [Option.any_map]
      refine Eq.trans (congrArg (old.join.target.any ·) (funext fun target => ?_)) hfits.1
      exact Option.isSome_map
  · rw [owners_relabel hv hn.tables, List.map_map]
    exact nodup_map_key (fun o : TableId × Join => o.2.id) names.join (ownerIds_nodup hv) hn.joins

end Schema

end ErModel
