import ErModel.Proofs.Carrying
import ErModel.Proofs.Rebuilding

/-!
# What deletions orphan

Deleting a join takes the column that carries it, unless that is a primary key, and deleting a table
takes all joins that it has a part in. What is left is as sound as it was, but a join that stays may
have referred to one of the columns that went. That is the only way in which a deletion can fail.
-/

namespace ErModel

namespace Schema

variable {schema next : Schema}

/-- A join that is not stripped refers to a column that goes with those that are. -/
def Orphans (schema : Schema) (joins : List JoinId) : Prop :=
  ∃ o ∈ schema.owningJoins, o.join.id ∉ joins ∧ ∃ target, o.join.target = some target ∧
    schema.Loses joins target

/-! ## Deletions -/

/-- An edit that only drops joins. -/
theorem rebuilt_of_dropped {joins : List JoinId} (hids : (next.tables.map (·.id)).Nodup)
    (hnames : (next.tables.map (·.name)).Nodup)
    (howners : next.owners = schema.owners.filter (·.2.id ∉ joins))
    (hmirrors : next.mirrorRecords = schema.mirrorRecords.filter (·.2.id ∉ joins))
    (hseats : ∀ s ∈ next.seats, s ∈ schema.seats) : schema.Rebuilt next joins [] [] where
  ids := hids
  names := hnames
  owners := .of_eq howners
  mirrors := .of_eq hmirrors
  seats := fun s hs => Or.inl (hseats s hs)
  addedIds := List.nodup_nil
  fresh := fun _ h => absurd h List.not_mem_nil
  sources := fun _ h => absurd h List.not_mem_nil
  fits := fun _ h => absurd h List.not_mem_nil
  mirrorIds := List.nodup_nil
  mirrored := fun _ h => absurd h List.not_mem_nil

theorem rebuilt_stripAll (hv : schema.Valid) (joins : List JoinId) :
    schema.Rebuilt (schema.stripAll joins) joins [] [] :=
  rebuilt_of_dropped (ids_stripAll schema joins ▸ hv.ids) (names_stripAll schema joins ▸ hv.names)
    (owners_stripAll schema joins) (mirrorRecords_stripAll schema joins)
    fun _ hs => (mem_seats_stripAll.mp hs).1

/-- **Stripping joins breaks a schema only by orphaning others.** -/
theorem stripAll_valid_iff (hv : schema.Valid) (joins : List JoinId) :
    (schema.stripAll joins).Valid ↔ ¬ schema.Orphans joins := by
  rw [(rebuilt_stripAll hv joins).valid_iff_lost hv (schema.Loses joins)]
  · exact ⟨fun h => h.2.2, fun h =>
      ⟨sound_stripAll hv joins, fun _ h => absurd h List.not_mem_nil, h⟩⟩
  · intro o ho _ target ht
    rw [offers_stripAll hv]
    exact and_iff_right (offers_of_owner hv ho ht)

/-- The schema without a table and without the joins that it takes part in. -/
def withoutTable (schema : Schema) (table : TableId) : Schema :=
  ⟨(schema.stripAll (schema.joinsTouching table)).tables.filter (·.id ≠ table)⟩

theorem rebuilt_withoutTable (hv : schema.Valid) (table : TableId) :
    schema.Rebuilt (schema.withoutTable table) (schema.joinsTouching table) [] [] := by
  refine rebuilt_of_dropped ?_ ?_ (owners_deleteTable schema table)
    (mirrorRecords_deleteTable hv.ids table) fun s hs => ?_
  · exact (ids_stripAll schema _ ▸ hv.ids).sublist (List.filter_sublist.map _)
  · exact (names_stripAll schema _ ▸ hv.names).sublist (List.filter_sublist.map _)
  · obtain ⟨t, ht, hs⟩ := mem_seats.mp hs
    exact (mem_seats_stripAll.mp (mem_seats.mpr ⟨t, (List.mem_filter.mp ht).1, hs⟩)).1

theorem withoutTable_valid_iff (hv : schema.Valid) (table : TableId) :
    (schema.withoutTable table).Valid ↔ ¬ schema.Orphans (schema.joinsTouching table) := by
  rw [(rebuilt_withoutTable hv table).valid_iff_lost hv
    (schema.Loses (schema.joinsTouching table))]
  · refine ⟨fun h => h.2.2, fun h =>
      ⟨fun t ht => ?_, fun _ h => absurd h List.not_mem_nil, h⟩⟩
    exact sound_stripAll hv _ t (List.mem_filter.mp ht).1
  · intro o ho hno target ht
    -- a join that is left does not refer to the table
    have hne : target.table ≠ table := by
      rintro rfl
      refine hno (touching_of_owner (o := (o.holder.id, o.join)) ?_ (Or.inr ?_))
      · exact owners_eq schema ▸ List.mem_map.mpr ⟨o, ho, rfl⟩
      · simp [Join.peer?, ht]
    have hleft : (schema.withoutTable table).Offers target ↔
        (schema.stripAll (schema.joinsTouching table)).Offers target := by
      constructor
      · rintro ⟨t, hmem, hid, hc⟩
        exact ⟨t, (List.mem_filter.mp hmem).1, hid, hc⟩
      · rintro ⟨t, hmem, hid, hc⟩
        exact ⟨t, List.mem_filter.mpr ⟨hmem, by simpa [hid] using hne⟩, hid, hc⟩
    rw [hleft, offers_stripAll hv]
    exact and_iff_right (offers_of_owner hv ho ht)

/-! ### Columns -/

/-- The schema without a column and without the join that it carries. -/
def withoutColumn (schema : Schema) (table : TableId) (column : Column) : Schema :=
  (schema.stripAll (column.foreignKey.map (·.id)).toList).modifyTable table fun t =>
    { t with columns := t.columns.filter (·.id ≠ column.id) }

theorem mem_carried_iff {column : Column} {join : JoinId} :
    join ∈ (column.foreignKey.map (·.id)).toList ↔ column.carries join = true := by
  rw [Option.mem_toList, Option.map_eq_some_iff, Column.carries_iff]

/-- Two columns that carry the same join are the same. -/
theorem column_of_carries (hv : schema.Valid) {t u : Table} (ht : t ∈ schema.tables)
    (hu : u ∈ schema.tables) {c d : Column} (hc : c ∈ t.columns) (hd : d ∈ u.columns)
    {join : JoinId} (hcarries : c.carries join = true) (hcarries' : d.carries join = true) :
    t.id = u.id ∧ c.id = d.id := by
  obtain ⟨record, hf, rfl⟩ := Column.carries_iff.mp hcarries'
  obtain ⟨hholder, hcolumn⟩ :=
    owner_of_carries hv ht hc (mem_owningJoins_of_column hu hd hf) hcarries
  exact ⟨congrArg Table.id hholder.symm, congrArg Column.id (Option.some.inj hcolumn).symm⟩

/-- All that was offered still is, but for the column. -/
theorem offers_modifyTable_filter (hids : (schema.tables.map (·.id)).Nodup) {table : TableId}
    {column : ColumnId} {target : JoinTarget} :
    (schema.modifyTable table fun t =>
      { t with columns := t.columns.filter (·.id ≠ column) }).Offers target ↔
        schema.Offers target ∧ target ≠ ⟨table, some column⟩ := by
  have hmem : ∀ {t : Table} {id : ColumnId}, id ∈ (t.columns.filter (·.id ≠ column)).map (·.id) ↔
      id ∈ t.columns.map (·.id) ∧ id ≠ column := by
    intro t id
    simp only [List.mem_map, List.mem_filter, decide_eq_true_eq]
    constructor
    · rintro ⟨c, ⟨hc, hne⟩, rfl⟩
      exact ⟨⟨c, hc, rfl⟩, hne⟩
    · rintro ⟨⟨c, hc, rfl⟩, hne⟩
      exact ⟨c, ⟨hc, hne⟩, rfl⟩
  rw [modifyTable, modifyFirst_eq_map hids]
  constructor
  · rintro ⟨_, hu, hid, hc⟩
    obtain ⟨old, hold, rfl⟩ := List.mem_map.mp hu
    by_cases he : old.id = table
    · rw [if_pos he] at hid hc
      refine ⟨⟨old, hold, hid, fun c h => (hmem.mp (hc c h)).1⟩, ?_⟩
      rintro rfl
      exact (hmem.mp (hc column rfl)).2 rfl
    · rw [if_neg he] at hid hc
      refine ⟨⟨old, hold, hid, hc⟩, ?_⟩
      rintro rfl
      exact he hid
  · rintro ⟨⟨old, hold, hid, hc⟩, hne⟩
    refine ⟨_, List.mem_map.mpr ⟨old, hold, rfl⟩, ?_⟩
    by_cases he : old.id = table
    · rw [if_pos he]
      refine ⟨hid, fun c h => hmem.mpr ⟨hc c h, ?_⟩⟩
      rintro rfl
      exact hne (by rw [← he, hid, ← h])
    · rw [if_neg he]
      exact ⟨hid, hc⟩

section

variable {t : Table} {c : Column}

theorem rebuilt_withoutColumn (hv : schema.Valid) (ht : t ∈ schema.tables) (hc : c ∈ t.columns) :
    schema.Rebuilt (schema.withoutColumn t.id c) (c.foreignKey.map (·.id)).toList [] [] := by
  have hids : (schema.withoutColumn t.id c).tables.map (·.id) = _ := ids_modifyTable fun _ => rfl
  have hnames : (schema.withoutColumn t.id c).tables.map (·.name) = _ :=
    names_modifyTable fun _ => rfl
  refine rebuilt_of_dropped ?_ ?_ ?_ ?_ fun s hs => ?_
  · rw [hids, ids_stripAll]
    exact hv.ids
  · rw [hnames, names_stripAll]
    exact hv.names
  · exact (owners_deleteColumn hv ht hc).trans (owners_stripAll _ _)
  · rw [← mirrorRecords_stripAll]
    exact collect_modifyTable_eq fun _ _ _ => rfl
  · -- a seat that is left was there
    obtain ⟨u, hu, hs⟩ := mem_seats.mp hs
    have hleft : s ∈ (schema.stripAll (c.foreignKey.map (·.id)).toList).seats := by
      rcases mem_of_modifyTable hu with hold | ⟨old, hfound, rfl⟩
      · exact mem_seats.mpr ⟨u, hold, hs⟩
      · exact mem_seats.mpr
          ⟨old, (mem_of_table? hfound).1, (Table.mem_seats_withoutColumn.mp hs).1⟩
    exact (mem_seats_stripAll.mp hleft).1

theorem sound_withoutColumn (hv : schema.Valid) (ht : t ∈ schema.tables) (hc : c ∈ t.columns)
    (hp : c.primaryKey = false) : ∀ u ∈ (schema.withoutColumn t.id c).tables, u.Sound := by
  intro u hu
  rcases mem_of_modifyTable hu with hold | ⟨old, hfound, rfl⟩
  · exact sound_stripAll hv _ u hold
  · obtain ⟨hmem, hid⟩ := mem_of_table? hfound
    refine (sound_stripAll hv _ old hmem).withoutColumn fun d hd hcolumn => ?_
    -- a column of that id is the one that goes, and so no key
    rw [stripAll_eq] at hmem
    obtain ⟨v, hold, rfl⟩ := List.mem_map.mp hmem
    obtain ⟨e, he, heid, hkey⟩ := Table.mem_columns_stripAll hd
    rw [Table.id_stripAll] at hid
    obtain rfl := eq_of_key_eq hv.ids hold ht hid
    rw [← hkey, eq_of_key_eq (hv.tables v hold).columnIds he hc (heid.trans hcolumn), hp]

/-- What goes with the join of a column is that column. -/
theorem eq_of_loses (hv : schema.Valid) (ht : t ∈ schema.tables) (hc : c ∈ t.columns)
    {target : JoinTarget} (h : schema.Loses (c.foreignKey.map (·.id)).toList target) :
    target = ⟨t.id, some c.id⟩ := by
  obtain ⟨u, hu, hid, d, hd, hcolumn, hgoes⟩ := h
  simp only [Column.goesWith, Bool.and_eq_true, List.any_eq_true, mem_carried_iff] at hgoes
  obtain ⟨-, join, hcarries, hcarries'⟩ := hgoes
  obtain ⟨htable, hcid⟩ := column_of_carries hv hu ht hd hc hcarries' hcarries
  obtain ⟨table, column⟩ := target
  rw [← htable, hid, ← hcid, ← hcolumn]

/-- **Deleting a column breaks a schema only if another join refers to it.** -/
theorem withoutColumn_valid_iff (hv : schema.Valid) (ht : t ∈ schema.tables) (hc : c ∈ t.columns)
    (hp : c.primaryKey = false) :
    (schema.withoutColumn t.id c).Valid ↔ ¬ ∃ o ∈ schema.owningJoins,
      c.carries o.join.id = false ∧ o.join.target = some ⟨t.id, some c.id⟩ := by
  rw [(rebuilt_withoutColumn hv ht hc).valid_iff_lost hv (· = ⟨t.id, some c.id⟩)]
  · have hothers : (∃ o ∈ schema.owningJoins, o.join.id ∉ (c.foreignKey.map (·.id)).toList ∧
        ∃ target, o.join.target = some target ∧ target = ⟨t.id, some c.id⟩) ↔
        ∃ o ∈ schema.owningJoins, c.carries o.join.id = false ∧
          o.join.target = some ⟨t.id, some c.id⟩ := by
      simp only [mem_carried_iff, Bool.not_eq_true, exists_eq_right]
    rw [hothers]
    exact ⟨fun h => h.2.2, fun h =>
      ⟨sound_withoutColumn hv ht hc hp, fun _ h => absurd h List.not_mem_nil, h⟩⟩
  · intro o ho _ target htarget
    rw [withoutColumn, offers_modifyTable_filter (ids_stripAll schema _ ▸ hv.ids),
      offers_stripAll hv]
    exact ⟨fun h => h.2, fun hne =>
      ⟨⟨offers_of_owner hv ho htarget, fun h => hne (eq_of_loses hv ht hc h)⟩, hne⟩⟩

end

end Schema

end ErModel
