import ErModel.Proofs.Compiling
import ErModel.Proofs.Orphans

/-!
# When a configured join leaves a valid schema

Configuring a join places its record anew and takes no column away, so no other join loses what it
refers to. What can go wrong is the table of the foreign key: the column takes the type that it
refers to, whatever else it says, and a new column is no key. A junction table is sound itself, but
it replaces the join, and the column of that one goes.
-/

namespace ErModel

theorem IdSupply.FreshFor.tableId_ne {ids : IdSupply} {schema : Schema} (h : ids.FreshFor schema)
    (k : Nat) {t : Table} (ht : t ∈ schema.tables) : ids.tableId k ≠ t.id := by
  intro he
  have htext : ids.text k = t.id.text := congrArg TableId.text he
  exact h k (List.mem_flatMap.mpr ⟨t, ht, htext ▸ List.mem_cons_self⟩)

theorem IdSupply.FreshFor.columnId_notMem {ids : IdSupply} {schema : Schema}
    (h : ids.FreshFor schema) (k : Nat) {t : Table} (ht : t ∈ schema.tables) :
    ids.columnId k ∉ t.columns.map (·.id) := by
  intro hmem
  obtain ⟨c, hc, he⟩ := List.mem_map.mp hmem
  exact h k (List.mem_flatMap.mpr ⟨t, ht, List.mem_cons_of_mem _
    (List.mem_map.mpr ⟨c, hc, congrArg ColumnId.text he⟩)⟩)

namespace Column

/-- A column stays free of faults under another type, unless it counts by itself. -/
theorem fault?_retyped {column : Column} (h : column.fault? = none) {dataType : DataType}
    (hscale : dataType.hasLooseScale = false) (join : Option Join) :
    fault? { column with dataType := dataType, foreignKey := join } = none ↔
      (column.autoIncrement = true → dataType.isNumber = true) := by
  obtain ⟨hcounts, hnull, -⟩ := fault?_eq_none.mp h
  rw [fault?_eq_none]
  exact ⟨fun h hauto => (h.1 hauto).2,
    fun h => ⟨fun hauto => ⟨(hcounts hauto).1, h hauto⟩, hnull, hscale⟩⟩

theorem fault?_foreign (id : ColumnId) (table : TableId) (name : String) {dataType : DataType}
    (hscale : dataType.hasLooseScale = false) (join : Join) :
    (foreign id table name dataType join).fault? = none :=
  fault?_eq_none.mpr ⟨nofun, nofun, hscale⟩

end Column

namespace Table

variable {table : Table} {column : Column}

/-- **Putting a join on a column leaves a sound table** if the column may have the type. -/
theorem sound_setForeignKey_iff (h : table.Sound) (hc : column ∈ table.columns)
    {dataType : DataType} (hscale : dataType.hasLooseScale = false) (record : Join) :
    (table.setForeignKey column.id dataType record).Sound ↔
      (column.autoIncrement = true → dataType.isNumber = true) := by
  have hcolumns : (table.setForeignKey column.id dataType record).columns =
      table.columns.map fun c => if c.id = column.id then
        { c with dataType := dataType, foreignKey := some record } else c :=
    modifyFirst_eq_map h.columnIds _
  rw [← Column.fault?_retyped (h.faultless column hc) hscale (some record)]
  constructor
  · intro hs
    refine hs.faultless _ ?_
    rw [hcolumns]
    exact List.mem_map.mpr ⟨column, hc, if_pos rfl⟩
  · intro hfault
    refine ⟨?_, ?_, ?_, ?_⟩
    · rw [hcolumns, List.map_map]
      refine Eq.mpr (congrArg _ (List.map_congr_left fun c _ => ?_)) h.columnIds
      simp only [Function.comp]
      split <;> rfl
    · rw [hcolumns]
      intro c hmem
      obtain ⟨old, hold, rfl⟩ := List.mem_map.mp hmem
      have hhome := h.home old hold
      split <;> exact hhome
    · rw [hcolumns]
      intro c hmem
      obtain ⟨old, hold, rfl⟩ := List.mem_map.mp hmem
      split
      · rename_i hid
        rwa [eq_of_key_eq h.columnIds hold hc hid]
      · exact h.faultless old hold
    · rcases h.key with hnone | ⟨key, hkey, hprimary⟩
      · exact absurd hc (hnone ▸ List.not_mem_nil)
      · refine Or.inr ⟨if key.id = column.id then
          { key with dataType := dataType, foreignKey := some record } else key, ?_, ?_⟩
        · rw [hcolumns, List.filter_map]
          have hsame : (fun c : Column => c.primaryKey) ∘ (fun c => if c.id = column.id then
              { c with dataType := dataType, foreignKey := some record } else c) =
                fun c => c.primaryKey := by
            funext c
            simp only [Function.comp]
            split <;> rfl
          rw [hsame, hkey]
          rfl
        · refine hprimary.trans (congrArg some ?_)
          split <;> rfl

/-- **A sound table may get a column** that is new to it and no key, if it has a key. -/
theorem sound_addColumn_iff (h : table.Sound) (hnew : column.id ∉ table.columns.map (·.id))
    (hhome : column.tableId = table.id) (hfault : column.fault? = none)
    (hkey : column.primaryKey = false) : (table.addColumn column).Sound ↔ table.columns ≠ [] := by
  have hkeys : (table.columns ++ [column]).filter (·.primaryKey) =
      table.columns.filter (·.primaryKey) := by
    rw [List.filter_append]
    simp [hkey]
  constructor
  · intro hs hnone
    rcases hs.key with hempty | ⟨key, hone, -⟩
    · simp [addColumn] at hempty
    · rw [addColumn, hkeys, hnone] at hone
      cases hone
  · intro hsome
    refine ⟨?_, ?_, ?_, ?_⟩
    · rw [addColumn, List.map_append, List.nodup_append]
      refine ⟨h.columnIds, by simp, ?_⟩
      rintro id hid other hother rfl
      rw [List.map_singleton, List.mem_singleton] at hother
      exact hnew (hother ▸ hid)
    · exact List.forall_mem_append.mpr ⟨h.home, List.forall_mem_singleton.mpr hhome⟩
    · exact List.forall_mem_append.mpr ⟨h.faultless, List.forall_mem_singleton.mpr hfault⟩
    · obtain ⟨key, hone, hprimary⟩ := h.key.resolve_left hsome
      exact Or.inr ⟨key, hkeys.trans hone, hprimary⟩

theorem sound_seeded (id : TableId) (key : ColumnId) (name : String) {keyType : DataType}
    (hscale : keyType.hasLooseScale = false) : (seeded id key name keyType).Sound where
  columnIds := by simp [seeded]
  home := by simp [seeded, Column.plain]
  faultless := by
    rw [seeded, List.forall_mem_singleton]
    have hfalse : ∀ {p : Prop}, false = true → p := fun h => absurd h Bool.false_ne_true
    exact Column.fault?_eq_none.mpr ⟨hfalse, hfalse, hscale⟩
  key := Or.inr ⟨_, rfl, rfl⟩

theorem columns_strip_of_uncarried {join : JoinId}
    (h : ∀ c ∈ table.columns, c.carries join = false) :
    (table.strip join).columns = table.columns := by
  have hall : table.columns.filter (fun c => c.primaryKey || !c.carries join) = table.columns :=
    List.filter_eq_self.mpr fun c hc => by simp [h c hc]
  have hsame : table.columns.map (·.without join) = table.columns.map fun c => c :=
    List.map_congr_left fun c hc => if_neg (by rw [h c hc]; exact Bool.false_ne_true)
  rw [columns_strip, hall, hsame, List.map_id']

theorem columns_stripAll_of_uncarried {joins : List JoinId}
    (h : ∀ c ∈ table.columns, ∀ join ∈ joins, c.carries join = false) :
    (table.stripAll joins).columns = table.columns := by
  induction joins generalizing table with
  | nil => rfl
  | cons join rest ih =>
      have hfirst : (table.strip join).columns = table.columns :=
        columns_strip_of_uncarried fun c hc => h c hc join List.mem_cons_self
      refine Eq.trans (ih fun c hc other hother => ?_) hfirst
      exact h c (hfirst ▸ hc) other (List.mem_cons_of_mem _ hother)

end Table

namespace Schema

variable {schema base next : Schema}

theorem foreignKey?_eq_none {join : JoinId} (h : schema.foreignKey? join = none) :
    ∀ t ∈ schema.tables, ∀ c ∈ t.columns, c.carries join = false := by
  intro t ht c hc
  have hnone := List.findSome?_eq_none_iff.mp h t ht
  rw [Option.map_eq_none_iff, List.find?_eq_none] at hnone
  simpa using hnone c hc

/-- One table has changed. -/
theorem sound_modifyTable_iff (hids : (schema.tables.map (·.id)).Nodup)
    (hsound : ∀ t ∈ schema.tables, t.Sound) {f : Table → Table} {t : Table}
    (ht : t ∈ schema.tables) :
    (∀ u ∈ (schema.modifyTable t.id f).tables, u.Sound) ↔ (f t).Sound := by
  have hfound := table?_of_mem hids ht
  refine ⟨fun h => h _ (mem_modifyTable hfound), fun h u hu => ?_⟩
  rcases mem_of_modifyTable hu with hold | ⟨old, hfound', rfl⟩
  · exact hsound u hold
  · rwa [← Option.some.inj (hfound.symm.trans hfound')]

theorem SameTables.sound_iff (h : next.SameTables schema) :
    (∀ t ∈ next.tables, t.Sound) ↔ ∀ t ∈ schema.tables, t.Sound := by
  have hone : ∀ {next schema : Schema}, next.SameTables schema → (∀ t ∈ schema.tables, t.Sound) →
      ∀ t ∈ next.tables, t.Sound := by
    intro next schema h hs t ht
    obtain ⟨u, hu, he⟩ := h.mem ht
    exact (hs u hu).of_withoutJoins he
  exact ⟨hone (Eq.symm h), hone h⟩

/-! ## Foreign keys -/

/-- The record has got a seat. It is the only one of its join, and it is yet to be mirrored; the
records of all other joins are left, and all columns. -/
structure Reseats (schema base : Schema) (record : Join) : Prop where
  ids : base.tables.map (·.id) = schema.tables.map (·.id)
  names : base.tables.map (·.name) = schema.tables.map (·.name)
  owners : base.owners.Perm
    ((record.source, record) :: schema.owners.filter (·.2.id ≠ record.id))
  mirrors : base.mirrorRecords = schema.mirrorRecords.filter (·.2.id ≠ record.id)
  seats : ∀ s ∈ (base.addMirror record).seats,
    s ∈ schema.seats ∨ (s.table, s.join) = (record.source, record)
  kept : schema.KeptBy base

section

variable {record : Join} {target : JoinTarget}

theorem Reseats.rebuilt (h : schema.Reseats base record) (hv : schema.Valid)
    (ht : record.target = some target) (hfits : record.fitsForeignKey = true)
    (hp : (base.table? target.table).isSome = true) :
    schema.Rebuilt (base.addMirror record) [record.id] [(record.source, record)]
      (wantedMirror? (record.source, record)).toList := by
  have hsame := sameTables_addMirror base record
  have hothers : ∀ records : List (TableId × Join), records.filter (·.2.id ∉ [record.id]) =
      records.filter (·.2.id ≠ record.id) := fun records => by simp
  refine ⟨?_, ?_, ?_, ?_, ?_, by simp, ?_, by simp, by simpa using hfits, ?_, ?_⟩
  · rw [hsame.ids, h.ids]
    exact hv.ids
  · rw [hsame.names, h.names]
    exact hv.names
  · rw [owners_addMirror ht, hothers]
    exact h.owners
  · rw [hothers, ← h.mirrors]
    exact mirrorRecords_addMirror ht hp
  · intro s hs
    rcases h.seats s hs with hold | hnew
    · exact Or.inl hold
    · exact Or.inr (List.mem_singleton.mpr hnew)
  · intro o ho old _ hno
    obtain rfl := List.mem_singleton.mp ho
    simpa using hno
  · cases wantedMirror? (record.source, record) <;> simp
  · intro m hm
    obtain ⟨-, rfl⟩ := wantedMirror?_place ht (Option.mem_toList.mp hm)
    exact ⟨_, List.mem_cons_self, rfl⟩

/-- **A configured join breaks a schema only by the table of its foreign key.** -/
theorem Reseats.valid_iff (h : schema.Reseats base record) (hv : schema.Valid)
    (ht : record.target = some target) (hfits : record.fitsForeignKey = true)
    (hoffered : schema.Offers target) :
    (base.addMirror record).Valid ↔ ∀ t ∈ base.tables, t.Sound := by
  have hsame := sameTables_addMirror base record
  have hoffers : ∀ {other}, schema.Offers other → (base.addMirror record).Offers other :=
    (h.kept.trans hsame.keptBy).offers
  have hp : (base.table? target.table).isSome = true := by
    obtain ⟨t, hmem, hid, -⟩ := h.kept.offers hoffered
    exact hid ▸ table?_isSome_of_mem hmem
  have hrebuilt := h.rebuilt hv ht hfits hp
  rw [hrebuilt.valid_iff_lost hv (fun _ => False), hsame.sound_iff]
  · refine and_iff_left ⟨fun o ho => ?_, fun ⟨_, _, _, _, _, h⟩ => h⟩
    obtain rfl := List.mem_singleton.mp ho
    exact (hasTarget_iff_offers hrebuilt.ids ht).mpr (hoffers hoffered)
  · intro o ho _ other hother
    exact iff_of_true (hoffers (offers_of_owner hv ho hother)) not_false

end

/-- The column of the join may have the type, or there is a key beside the column that it is to
get. -/
def TakesForeignKey (schema : Schema) (join : JoinId) (holder : TableId) (dataType : DataType) :
    Prop :=
  match schema.foreignKey? join with
  | some (_, column) => column.autoIncrement = true → dataType.isNumber = true
  | none => ∃ t, schema.table? holder = some t ∧ t.columns ≠ []

/-- A join that has a column breaks the schema only if that one counts and is no number any more. -/
theorem onColumn_valid_iff (hv : schema.Valid) {record : Join} {target : JoinTarget}
    (ht : record.target = some target) (hfits : record.fitsForeignKey = true)
    (hoffered : schema.Offers target) {holder : Table} {column : Column}
    (hfound : schema.foreignKey? record.id = some (holder, column))
    (hs : record.source = holder.id) {dataType : DataType}
    (hscale : dataType.hasLooseScale = false) :
    (((schema.clear record.id).modifyTable record.source
      (·.setForeignKey column.id dataType record)).addMirror record).Valid ↔
        (column.autoIncrement = true → dataType.isNumber = true) := by
  obtain ⟨hholder, hcolumn, -⟩ := foreignKey?_eq_some hfound
  have hclear : (schema.clear record.id).SameTables schema := by
    rw [SameTables, clear, mapTables, List.map_map]
    rfl
  have hids : ((schema.clear record.id).tables.map (·.id)).Nodup := hclear.ids ▸ hv.ids
  have hsound : ∀ t ∈ (schema.clear record.id).tables, t.Sound := hclear.sound_iff.mpr hv.tables
  have hcleared : holder.clear record.id ∈ (schema.clear record.id).tables :=
    List.mem_map.mpr ⟨holder, hholder, rfl⟩
  have hcolumns : ∀ t : Table, (t.setForeignKey column.id dataType record).columns.map (·.id) =
      t.columns.map (·.id) := fun t =>
    map_modifyFirst (f := fun c => { c with dataType := dataType, foreignKey := some record })
      (fun _ => rfl) t.columns
  have hreseats : schema.Reseats ((schema.clear record.id).modifyTable record.source
      (·.setForeignKey column.id dataType record)) record := by
    refine ⟨?_, ?_, owners_onColumn hv hfound hs, mirrorRecords_onColumn .., fun s hmem => ?_, ?_⟩
    · exact Eq.trans (ids_modifyTable fun _ => rfl) hclear.ids
    · exact Eq.trans (names_modifyTable fun _ => rfl) hclear.names
    · rcases (mem_seats_onColumn hv ht hfound hs rfl).mp hmem with ⟨hold, -⟩ | rfl
      · exact Or.inl hold
      · exact Or.inr rfl
    · refine hclear.keptBy.trans (keptBy_modifyTable hids fun t _ _ => ⟨rfl, ?_⟩)
      exact (hcolumns t).symm ▸ List.Subset.refl _
  rw [hreseats.valid_iff hv ht hfits hoffered, hs]
  exact (sound_modifyTable_iff hids hsound hcleared).trans
    (Table.sound_setForeignKey_iff (hsound _ hcleared) hcolumn hscale record)

/-- A join that gets a column breaks the schema only if there is none beside that. -/
theorem onNewColumn_valid_iff (hv : schema.Valid) {record : Join} {target : JoinTarget}
    (ht : record.target = some target) (hfits : record.fitsForeignKey = true)
    (hoffered : schema.Offers target) (hnone : schema.foreignKey? record.id = none)
    {holder : Table} (hs : schema.table? record.source = some holder)
    {dataType : DataType} (hscale : dataType.hasLooseScale = false) {id : ColumnId}
    (hnew : id ∉ holder.columns.map (·.id)) (name : Table → String) :
    (((schema.strip record.id).modifyTable record.source fun t =>
      t.addColumn (Column.foreign id record.source (name t) dataType record)).addMirror
        record).Valid ↔ holder.columns ≠ [] := by
  obtain ⟨hholder, hid⟩ := mem_of_table? hs
  let made : Table → Column := fun t =>
    Column.foreign id record.source (name t) dataType record
  -- the join is pending, so no column goes with it
  have hcolumns : ∀ t ∈ schema.tables, (t.strip record.id).columns = t.columns := fun t ht =>
    Table.columns_strip_of_uncarried (foreignKey?_eq_none hnone t ht)
  have hids : ((schema.strip record.id).tables.map (·.id)).Nodup :=
    ids_strip schema record.id ▸ hv.ids
  have hstripped : holder.strip record.id ∈ (schema.strip record.id).tables :=
    List.mem_map.mpr ⟨holder, hholder, rfl⟩
  have hsound : ∀ t ∈ (schema.strip record.id).tables, t.Sound := sound_stripAll hv [record.id]
  have hsource : (schema.table? record.source).isSome = true := hs ▸ rfl
  have hkept : schema.KeptBy (schema.strip record.id) := keptBy_mapTables fun t ht =>
    ⟨rfl, (hcolumns t ht).symm ▸ List.Subset.refl _⟩
  have hreseats : schema.Reseats ((schema.strip record.id).modifyTable record.source fun t =>
      t.addColumn (made t)) record := by
    have hmade : ∀ t, (made t).id = id := fun _ => rfl
    have hcarries : ∀ t, (made t).foreignKey = some record := fun _ => rfl
    refine ⟨?_, ?_, owners_onNewColumn hsource hcarries, mirrorRecords_onNewColumn ..,
      fun s hmem => ?_, ?_⟩
    · exact Eq.trans (ids_modifyTable fun _ => rfl) (ids_strip schema record.id)
    · exact Eq.trans (names_modifyTable fun _ => rfl) (names_stripAll schema [record.id])
    · rcases (mem_seats_onNewColumn hv ht hsource hmade hcarries rfl).mp hmem with ⟨hold, -⟩ | rfl
      · exact Or.inl hold
      · exact Or.inr rfl
    · refine hkept.trans (keptBy_modifyTable hids fun t _ _ => ⟨rfl, ?_⟩)
      rw [Table.addColumn, List.map_append]
      exact List.subset_append_left _ _
  refine (hreseats.valid_iff hv ht hfits hoffered).trans ?_
  rw [← hid, ← hcolumns holder hholder]
  refine (sound_modifyTable_iff hids hsound hstripped).trans
    (Table.sound_addColumn_iff (hsound _ hstripped) ?_ hid.symm
      (Column.fault?_foreign _ _ _ hscale _) rfl)
  rw [hcolumns holder hholder]
  exact hnew

/-- A column that a configured join may refer to is one of the table. -/
theorem mem_of_key? {config : JoinConfig} {referenced : Table} {key : Column}
    (h : config.key? referenced = some key) : key ∈ referenced.columns := by
  unfold JoinConfig.key? at h
  split at h
  · obtain ⟨column, -, h⟩ := Option.bind_eq_some_iff.mp h
    exact List.mem_of_find?_eq_some h
  · exact List.mem_of_find?_eq_some h

/-- **A configured join leaves a valid schema** just if its column may have the type, or may be
added. -/
theorem withForeignKey_valid_iff (hv : schema.Valid) {ids : IdSupply} (hfresh : ids.FreshFor schema)
    {join : JoinId} {config : JoinConfig} (hkind : config.kind ≠ .manyToMany) {holder : TableId}
    {referenced : Table} {key : Column}
    (hreferenced : schema.table? referenced.id = some referenced)
    (hkey : config.key? referenced = some key) (hs : (schema.table? holder).isSome = true)
    (hfk : ∀ t c, schema.foreignKey? join = some (t, c) → holder = t.id) :
    (schema.withForeignKey ids join config holder referenced key).1.Valid ↔
      schema.TakesForeignKey join holder key.dataType := by
  have hmem := (mem_of_table? hreferenced).1
  have hkeymem := mem_of_key? hkey
  have hscale := (Column.fault?_eq_none.mp ((hv.tables _ hmem).faultless key hkeymem)).2.2
  let record := config.record join holder referenced.id key.id
  have ht : record.target = some ⟨referenced.id, some key.id⟩ := rfl
  have hfits : record.fitsForeignKey = true := by
    simp [record, JoinConfig.record, Join.fitsForeignKey, hkind]
  have hoffered : schema.Offers ⟨referenced.id, some key.id⟩ := offers_column hmem hkeymem
  rw [withForeignKey, placeForeignKey_eq ht, TakesForeignKey]
  cases hfound : schema.foreignKey? join with
  | some found => exact onColumn_valid_iff hv ht hfits hoffered hfound (hfk _ _ hfound) hscale
  | none =>
      obtain ⟨t, htable⟩ := Option.isSome_iff_exists.mp hs
      refine (onNewColumn_valid_iff hv ht hfits hoffered hfound htable hscale
        (hfresh.columnId_notMem 0 (mem_of_table? htable).1) _).trans ?_
      simp [htable]

end Schema

/-! ## Junction tables -/

/-- None of the ids is that of a table or a column, and no join is declared by a table that gets the
first. -/
structure IdSupply.UnusedIn (ids : IdSupply) (schema : Schema) : Prop where
  texts : ids.FreshFor schema
  joins : ∀ o ∈ schema.owningJoins, ∀ table n, o.join.id ≠ JoinId.nth (ids.tableId 0) table n

/-- The two joins of a junction table tell its sides apart, also where these are one table. -/
theorem JoinId.nth_sides_ne (junction a b : TableId) :
    nth junction a 0 ≠ nth junction b (if a = b then 1 else 0) := by
  by_cases h : a = b
  · subst h
    rw [if_pos rfl]
    exact fun he => absurd (nth_injective _ _ he) (by decide)
  · rw [if_neg h]
    intro he
    exact h (congrArg TableId.mk ((String.append_right_inj _).mp (congrArg JoinId.text he)))

theorem Table.mem_of_junctionKey? {table : Table} {named : Option JunctionColumn} {key : Column}
    (h : table.junctionKey? named = some key) : key ∈ table.columns := by
  rw [junctionKey?, Option.or_eq_some_iff] at h
  rcases h with h | ⟨-, h⟩
  · obtain ⟨n, -, h⟩ := Option.bind_eq_some_iff.mp h
    exact List.mem_of_find?_eq_some h
  · exact List.mem_of_find?_eq_some h

theorem Table.Sound.addJunctionColumn {junction : Table} (h : junction.Sound)
    (hsome : junction.columns ≠ []) {id : ColumnId} (hnew : id ∉ junction.columns.map (·.id))
    {key : Column} (hkey : key.fault? = none) (wanted : String) (join : Join) :
    (junction.addJunctionColumn id wanted key join).Sound :=
  (Table.sound_addColumn_iff h hnew rfl
    (Column.fault?_foreign _ _ _ (Column.fault?_eq_none.mp hkey).2.2 _) rfl).mpr hsome

namespace Schema

variable {schema next : Schema}

theorem sound_junctionBetween (ids : IdSupply) (config : JoinConfig) (a b : Table)
    {aKey bKey : Column} (ha : aKey.fault? = none) (hb : bKey.fault? = none) :
    (junctionBetween ids config a b aKey bKey).1.Sound := by
  have hids : ∀ m n, m ≠ n → ids.columnId m ≠ ids.columnId n := fun m n hne he =>
    hne (ids.text_injective (congrArg ColumnId.text he))
  have hscale : (junctionKeyType a).hasLooseScale = false := by
    unfold junctionKeyType
    split <;> rfl
  refine ((Table.sound_seeded _ _ _ hscale).addJunctionColumn ?_ ?_ ha _ _).addJunctionColumn
    ?_ ?_ hb _ _
  · simp [Table.seeded]
  · simpa [Table.seeded, Column.plain] using hids 2 1 (by decide)
  · simp [Table.addJunctionColumn, Table.addColumn]
  · simpa [Table.addJunctionColumn, Table.addColumn, Table.seeded, Column.plain, Column.foreign]
      using ⟨hids 3 1 (by decide), hids 3 2 (by decide)⟩

section

variable {ids : IdSupply} {join : JoinId} {a b junction : Table} {toA toB : Join}

/-- Two records of joins are added, and the tables are what they were. -/
theorem sameTables_addJoins (base : Schema) (a b : TableId) (joinA joinB : Join) :
    ((base.modifyTable a (·.addJoin joinA)).modifyTable b (·.addJoin joinB)).SameTables base :=
  (sameTables_addJoin ..).trans (sameTables_addJoin ..)

/-- All is left but the column that goes; what a new table offers is new. -/
theorem offers_withJunction (hv : schema.Valid) (hnew : ∀ t ∈ schema.tables, junction.id ≠ t.id)
    {target : JoinTarget} (ho : schema.Offers target) :
    (schema.withJunction join a b (junction, toA, toB)).Offers target ↔
      ¬ schema.Loses [join] target := by
  have hsame := sameTables_addJoins (schema.strip join) a.id b.id toA.mirror toB.mirror
  have hleft : (schema.stripAll [join]).Offers target ↔ _ := offers_stripAll hv
  refine Iff.trans ?_ (hleft.trans (and_iff_right ho))
  constructor
  · rintro ⟨t, ht, hid, hc⟩
    rcases List.mem_append.mp ht with hold | hone
    · obtain ⟨u, hu, he⟩ := hsame.mem hold
      refine ⟨u, hu, (Table.id_of_withoutJoins he).trans hid, fun column h => ?_⟩
      rw [Table.columns_of_withoutJoins he]
      exact hc column h
    · obtain rfl := List.mem_singleton.mp hone
      obtain ⟨u, hu, hid', -⟩ := ho
      exact absurd (hid.trans hid'.symm) (hnew u hu)
  · exact (hsame.keptBy.trans (keptBy_append _ junction)).offers

theorem sound_withJunction (hv : schema.Valid) (hj : junction.Sound) :
    ∀ t ∈ (schema.withJunction join a b (junction, toA, toB)).tables, t.Sound := by
  intro t ht
  rcases List.mem_append.mp ht with hold | hone
  · have hsame := sameTables_addJoins (schema.strip join) a.id b.id toA.mirror toB.mirror
    exact hsame.sound_iff.mpr (sound_stripAll hv [join]) t hold
  · rw [List.mem_singleton.mp hone]
    exact hj

/-- A junction table has the only new records, and both sides the mirrors of these. -/
theorem rebuilt_withJunction (hv : schema.Valid) (hlinks : junction.Links ids a b toA toB)
    (hunused : ids.UnusedIn schema) (ha : schema.table? a.id = some a)
    (hb : schema.table? b.id = some b) (hname : schema.tableNamed? junction.name = none)
    (hfitsA : toA.fitsForeignKey = true) (hfitsB : toB.fitsForeignKey = true) :
    schema.Rebuilt (schema.withJunction join a b (junction, toA, toB)) [join]
      [(junction.id, toA), (junction.id, toB)] [(b.id, toB.mirror), (a.id, toA.mirror)] := by
  have hnew : ∀ t ∈ schema.tables, junction.id ≠ t.id := fun t ht =>
    hlinks.id ▸ hunused.texts.tableId_ne 0 ht
  have hneA := hnew a (mem_of_table? ha).1
  have hneB := hnew b (mem_of_table? hb).1
  have hne : toA.id ≠ toB.id := by
    rw [hlinks.idA, hlinks.idB]
    exact JoinId.nth_sides_ne _ _ _
  have hsame := sameTables_addJoins (schema.strip join) a.id b.id toA.mirror toB.mirror
  have hothers : ∀ records : List (TableId × Join), records.filter (·.2.id ∉ [join]) =
      records.filter (·.2.id ≠ join) := fun records => by simp
  refine ⟨?_, ?_, ?_, ?_, ?_, by simpa using hne, ?_, ?_, ?_, by simpa using hne.symm, ?_⟩
  · rw [withJunction, append, List.map_append, hsame.ids, ids_strip, List.nodup_append]
    refine ⟨hv.ids, by simp, ?_⟩
    intro id hid other hother he
    obtain ⟨t, ht, rfl⟩ := List.mem_map.mp hid
    exact hnew t ht ((List.mem_singleton.mp hother).symm.trans he.symm)
  · rw [withJunction, append, List.map_append, hsame.names, List.nodup_append]
    refine ⟨names_stripAll schema [join] ▸ hv.names, by simp, ?_⟩
    intro name hmem other hother he
    obtain ⟨t, ht, rfl⟩ := List.mem_map.mp (names_stripAll schema [join] ▸ hmem)
    have hfree := List.find?_eq_none.mp hname t ht
    rw [decide_eq_true_eq] at hfree
    exact hfree (he.trans (List.mem_singleton.mp hother))
  · rw [owners_withJunction hlinks hneA hneB, hothers]
    exact List.perm_append_comm
  · rw [hothers]
    exact mirrorRecords_withJunction hlinks ha hb hneA hneB
  · intro s hs
    rw [withJunction, seats_append, List.mem_append, seats_addJoin_mirror (hlinks.sourceB ▸ hneB),
      seats_addJoin_mirror (hlinks.sourceA ▸ hneA), mem_seats_strip] at hs
    rcases hs with ⟨hold, -⟩ | hmade
    · exact Or.inl hold
    · have hjoin : s.join ∈ junction.owners :=
        junction.owners_eq_seats ▸ List.mem_map.mpr ⟨s, hmade, rfl⟩
      rw [hlinks.owners] at hjoin
      rw [(Table.mem_seats.mp hmade).1]
      exact Or.inr (by simpa using hjoin)
  · intro o ho old hold _ he
    rw [owners_eq] at hold
    obtain ⟨owned, howned, rfl⟩ := List.mem_map.mp hold
    simp only [List.mem_cons, List.not_mem_nil, or_false] at ho
    rcases ho with rfl | rfl
    · exact hunused.joins owned howned _ _ (he.trans (hlinks.id ▸ hlinks.idA))
    · exact hunused.joins owned howned _ _ (he.trans (hlinks.id ▸ hlinks.idB))
  · simpa using ⟨hlinks.sourceA, hlinks.sourceB⟩
  · simpa using ⟨hfitsA, hfitsB⟩
  · simp

end

/-- **A junction table breaks a schema only by the column of the join that it replaces:** another
join refers to that column, or the junction itself does. -/
theorem withJunction_valid_iff (hv : schema.Valid) {ids : IdSupply} (hunused : ids.UnusedIn schema)
    {join : JoinId} {config : JoinConfig} {a b : Table} {aKey bKey : Column}
    (ha : schema.table? a.id = some a) (hb : schema.table? b.id = some b)
    (haKey : a.junctionKey? config.joinColumn = some aKey)
    (hbKey : b.junctionKey? config.inverseColumn = some bKey)
    (hname : schema.tableNamed? (junctionName config a b) = none) :
    (schema.withJunction join a b (junctionBetween ids config a b aKey bKey)).Valid ↔
      ¬ (schema.Orphans [join] ∨ schema.Loses [join] ⟨a.id, some aKey.id⟩ ∨
        schema.Loses [join] ⟨b.id, some bKey.id⟩) := by
  let made := junctionBetween ids config a b aKey bKey
  have hlinks := links_junctionBetween ids config a b aKey bKey
  have hnew : ∀ t ∈ schema.tables, made.1.id ≠ t.id := fun t ht => hunused.texts.tableId_ne 0 ht
  have hmemA := (mem_of_table? ha).1
  have hmemB := (mem_of_table? hb).1
  have hkeyA := Table.mem_of_junctionKey? haKey
  have hkeyB := Table.mem_of_junctionKey? hbKey
  have hrebuilt : schema.Rebuilt (schema.withJunction join a b made) [join]
      [(made.1.id, made.2.1), (made.1.id, made.2.2)]
      [(b.id, made.2.2.mirror), (a.id, made.2.1.mirror)] :=
    rebuilt_withJunction hv hlinks hunused ha hb hname rfl rfl
  have hjunction : made.1.Sound := sound_junctionBetween ids config a b
    ((hv.tables a hmemA).faultless aKey hkeyA) ((hv.tables b hmemB).faultless bKey hkeyB)
  have hsound : ∀ t ∈ (schema.withJunction join a b made).tables, t.Sound :=
    sound_withJunction hv hjunction
  have hoffers : ∀ {target}, schema.Offers target →
      ((schema.withJunction join a b made).Offers target ↔ ¬ schema.Loses [join] target) :=
    fun ho => offers_withJunction hv hnew ho
  have htarget : ∀ {j : Join} {target}, j.target = some target → schema.Offers target →
      ((schema.withJunction join a b made).HasTarget j ↔ ¬ schema.Loses [join] target) :=
    fun hj ho => (hasTarget_iff_offers hrebuilt.ids hj).trans (hoffers ho)
  rw [hrebuilt.valid_iff_lost hv (schema.Loses [join])]
  · simp only [List.mem_cons, List.not_mem_nil, or_false, forall_eq_or_imp, forall_eq]
    have htargetA : made.2.1.target = some ⟨a.id, some aKey.id⟩ := rfl
    have htargetB : made.2.2.target = some ⟨b.id, some bKey.id⟩ := rfl
    rw [htarget htargetA (offers_column hmemA hkeyA), htarget htargetB (offers_column hmemB hkeyB),
      and_iff_right hsound, not_or, not_or, and_comm, Orphans]
    simp only [List.mem_singleton]
  · exact fun o ho _ target ht => hoffers (offers_of_owner hv ho ht)

end Schema

end ErModel
