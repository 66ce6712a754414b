import ErModel.Graph.Basic
import ErModel.Proofs.Placement

/-!
# Where joins sit

The edges of a schema come from its owning records, and an edge shows the table that holds the
record and whether a column carries it. So it is not enough to know the records that an edit leaves:
what counts is the seat of each of them. A seat is the table, the column unless the join is pending,
and the record. Ids of joins tell the seats of a valid schema apart, and each change that edits are
made of drops some seats or adds one.
-/

namespace ErModel

/-- The place of an owning record: the table that holds it, and the column that carries it. -/
structure Seat where
  table : TableId
  /-- There is none while the join is pending. -/
  column : Option ColumnId
  join : Join

/-- Where an owning record is. -/
def OwnedJoin.seat (owned : OwnedJoin) : Seat where
  table := owned.holder.id
  column := owned.column.map (·.id)
  join := owned.join

namespace Table

/-- The seats of a table: those on its columns, and then the pending ones. -/
def seats (table : Table) : List Seat :=
  table.columns.filterMap (fun c => c.foreignKey.map fun join => ⟨table.id, some c.id, join⟩) ++
    table.pendingJoins.map fun join => ⟨table.id, none, join⟩

theorem owners_eq_seats (table : Table) : table.owners = table.seats.map (·.join) := by
  rw [owners, seats, List.map_append, List.map_filterMap, List.map_map]
  congr 1
  · congr 1
    funext c
    cases c.foreignKey <;> rfl
  · exact (List.map_id _).symm

theorem seats_of_owners_nil {table : Table} (h : table.owners = []) : table.seats = [] := by
  rw [owners_eq_seats] at h
  exact List.map_eq_nil_iff.mp h

theorem mem_seats {table : Table} {s : Seat} : s ∈ table.seats ↔ s.table = table.id ∧
    ((∃ c ∈ table.columns, s.column = some c.id ∧ c.foreignKey = some s.join) ∨
      s.column = none ∧ s.join ∈ table.pendingJoins) := by
  obtain ⟨id, column, join⟩ := s
  rw [seats, List.mem_append, List.mem_filterMap, List.mem_map]
  constructor
  · rintro (⟨c, hc, he⟩ | ⟨j, hj, he⟩)
    · obtain ⟨j, hf, he⟩ := Option.map_eq_some_iff.mp he
      cases he
      exact ⟨rfl, Or.inl ⟨c, hc, rfl, hf⟩⟩
    · cases he
      exact ⟨rfl, Or.inr ⟨rfl, hj⟩⟩
  · rintro ⟨rfl, ⟨c, hc, rfl, hf⟩ | ⟨rfl, hj⟩⟩
    · exact Or.inl ⟨c, hc, by rw [hf]; rfl⟩
    · exact Or.inr ⟨join, hj, rfl⟩

end Table

namespace Schema

/-- The seats of all owning records. -/
def seats (schema : Schema) : List Seat := schema.collect (·.seats)

theorem seats_eq (schema : Schema) : schema.seats = schema.owningJoins.map (·.seat) := by
  rw [seats, collect, owningJoins, List.map_flatMap]
  congr 1
  funext t
  rw [Table.seats, Table.ownedJoins, List.map_append, List.map_filterMap, List.map_map]
  congr 1
  congr 1
  funext c
  cases c.foreignKey <;> rfl

theorem seatIds_eq (schema : Schema) :
    schema.seats.map (·.join.id) = schema.owningJoins.map (·.join.id) := by
  rw [seats_eq, List.map_map]
  rfl

theorem mem_seats {schema : Schema} {s : Seat} :
    s ∈ schema.seats ↔ ∃ t ∈ schema.tables, s ∈ t.seats := List.mem_flatMap

/-- Ids of joins tell seats apart. -/
theorem seat_unique {schema : Schema} (hv : schema.Valid) {s s' : Seat} (hs : s ∈ schema.seats)
    (hs' : s' ∈ schema.seats) (h : s.join.id = s'.join.id) : s = s' :=
  eq_of_key_eq (seatIds_eq schema ▸ hv.ownerIds) hs hs' h

/-! ## Changes of tables -/

theorem seats_append (schema : Schema) (table : Table) :
    (schema.append table).seats = schema.seats ++ table.seats := collect_append ..

/-- A change of a table that its seats do not see. -/
theorem seats_modifyTable_eq {schema : Schema} {id : TableId} {f : Table → Table}
    (h : ∀ t ∈ schema.tables, t.id = id → (f t).seats = t.seats) :
    (schema.modifyTable id f).seats = schema.seats := collect_modifyTable_eq h

/-- A table that is changed has other seats, and the others have theirs. -/
theorem mem_seats_modifyTable {schema : Schema} (hn : (schema.tables.map (·.id)).Nodup)
    {t : Table} (ht : t ∈ schema.tables) (f : Table → Table) {s : Seat} :
    s ∈ (schema.modifyTable t.id f).seats ↔
      s ∈ schema.seats ∧ s.table ≠ t.id ∨ s ∈ (f t).seats := by
  rw [mem_seats, modifyTable, modifyFirst_eq_map hn, mem_seats]
  constructor
  · rintro ⟨u, hu, hs⟩
    obtain ⟨old, hold, rfl⟩ := List.mem_map.mp hu
    by_cases he : old.id = t.id
    · rw [if_pos he] at hs
      exact Or.inr (eq_of_key_eq hn hold ht he ▸ hs)
    · rw [if_neg he] at hs
      exact Or.inl ⟨⟨old, hold, hs⟩, fun h => he ((Table.mem_seats.mp hs).1.symm.trans h)⟩
  · rintro (⟨⟨u, hu, hs⟩, hne⟩ | hs)
    · refine ⟨u, List.mem_map.mpr ⟨u, hu, if_neg fun he => hne ?_⟩, hs⟩
      exact (Table.mem_seats.mp hs).1.trans he
    · exact ⟨f t, List.mem_map.mpr ⟨t, ht, if_pos rfl⟩, hs⟩

/-- A table that is changed keeps some of its seats and has new ones. -/
theorem mem_seats_change {schema : Schema} (hn : (schema.tables.map (·.id)).Nodup) {t : Table}
    (ht : t ∈ schema.tables) {f : Table → Table} (keep new : Seat → Prop)
    (hf : ∀ s, s ∈ (f t).seats ↔ s ∈ t.seats ∧ keep s ∨ new s)
    (hothers : ∀ s ∈ schema.seats, s.table ≠ t.id → keep s) {s : Seat} :
    s ∈ (schema.modifyTable t.id f).seats ↔ s ∈ schema.seats ∧ keep s ∨ new s := by
  have hmine : s ∈ t.seats ↔ s ∈ schema.seats ∧ s.table = t.id := by
    refine ⟨fun hs => ⟨mem_seats.mpr ⟨t, ht, hs⟩, (Table.mem_seats.mp hs).1⟩, fun ⟨hs, he⟩ => ?_⟩
    obtain ⟨u, hu, hs⟩ := mem_seats.mp hs
    exact eq_of_key_eq hn hu ht ((Table.mem_seats.mp hs).1.symm.trans he) ▸ hs
  rw [mem_seats_modifyTable hn ht, hf, hmine]
  constructor
  · rintro (⟨hs, hne⟩ | ⟨⟨hs, -⟩, hk⟩ | hnew)
    · exact Or.inl ⟨hs, hothers s hs hne⟩
    · exact Or.inl ⟨hs, hk⟩
    · exact Or.inr hnew
  · rintro (⟨hs, hk⟩ | hnew)
    · by_cases he : s.table = t.id
      · exact Or.inr (Or.inl ⟨⟨hs, he⟩, hk⟩)
      · exact Or.inl ⟨hs, he⟩
    · exact Or.inr (Or.inr hnew)

end Schema

/-! ## Dropping joins -/

theorem Table.mem_seats_strip {table : Table} {join : JoinId} {s : Seat} :
    s ∈ (table.strip join).seats ↔ s ∈ table.seats ∧ s.join.id ≠ join := by
  rw [Table.mem_seats, Table.mem_seats, and_assoc]
  refine and_congr_right fun _ => ?_
  rw [or_and_right]
  refine or_congr ?_ ?_
  · constructor
    · rintro ⟨c, hc, hid, hf⟩
      obtain ⟨old, hold, -, hnone | ⟨rfl, hcarries⟩⟩ := Table.mem_columns_strip hc
      · rw [hnone] at hf
        cases hf
      · refine ⟨⟨c, hold, hid, hf⟩, ?_⟩
        simpa [Column.carries, hf] using hcarries
    · rintro ⟨⟨c, hc, hid, hf⟩, hne⟩
      have hcarries : c.carries join = false := by simpa [Column.carries, hf] using hne
      refine ⟨c, List.mem_map.mpr ⟨c, List.mem_filter.mpr ⟨hc, by simp [hcarries]⟩, ?_⟩, hid, hf⟩
      rw [if_neg (by simp [hcarries])]
  · rw [and_assoc, Table.pendingJoins, Table.pendingJoins, Table.strip, List.mem_filter,
      List.mem_filter, List.mem_filter]
    simp only [decide_eq_true_eq]
    exact and_congr_right fun _ => and_right_comm

theorem Table.mem_seats_clear {table : Table} {join : JoinId} {s : Seat} :
    s ∈ (table.clear join).seats ↔ s ∈ table.seats ∧ (s.column = none → s.join.id ≠ join) := by
  rw [Table.mem_seats, Table.mem_seats, and_assoc]
  refine and_congr_right fun _ => ?_
  rw [Table.pendingJoins, Table.pendingJoins, Table.clear, List.mem_filter, List.mem_filter,
    List.mem_filter]
  cases s.column with
  | none => simp [and_comm, and_left_comm]
  | some c => simp

namespace Schema

theorem mem_seats_strip {schema : Schema} {join : JoinId} {s : Seat} :
    s ∈ (schema.strip join).seats ↔ s ∈ schema.seats ∧ s.join.id ≠ join := by
  rw [seats, strip, collect_mapTables, collect, List.mem_flatMap, mem_seats]
  simp only [Table.mem_seats_strip]
  constructor
  · rintro ⟨t, ht, hs, hne⟩
    exact ⟨⟨t, ht, hs⟩, hne⟩
  · rintro ⟨⟨t, ht, hs⟩, hne⟩
    exact ⟨t, ht, hs, hne⟩

theorem mem_seats_stripAll {schema : Schema} {joins : List JoinId} {s : Seat} :
    s ∈ (schema.stripAll joins).seats ↔ s ∈ schema.seats ∧ s.join.id ∉ joins := by
  unfold stripAll
  induction joins generalizing schema with
  | nil => simp
  | cons join rest ih =>
      rw [List.foldl_cons, ih, mem_seats_strip, List.mem_cons, not_or, and_assoc]

theorem mem_seats_clear {schema : Schema} {join : JoinId} {s : Seat} :
    s ∈ (schema.clear join).seats ↔
      s ∈ schema.seats ∧ (s.column = none → s.join.id ≠ join) := by
  rw [seats, clear, collect_mapTables, collect, List.mem_flatMap, mem_seats]
  simp only [Table.mem_seats_clear]
  constructor
  · rintro ⟨t, ht, hs, hne⟩
    exact ⟨⟨t, ht, hs⟩, hne⟩
  · rintro ⟨⟨t, ht, hs⟩, hne⟩
    exact ⟨t, ht, hs, hne⟩

end Schema

/-- The columns of a table but one, and the seats on these. -/
theorem Table.mem_seats_withoutColumn {table : Table} {column : ColumnId} {s : Seat} :
    s ∈ Table.seats { table with columns := table.columns.filter (·.id ≠ column) } ↔
      s ∈ table.seats ∧ s.column ≠ some column := by
  rw [Table.mem_seats, Table.mem_seats, and_assoc]
  refine and_congr_right fun _ => ?_
  constructor
  · rintro (⟨c, hc, hid, hf⟩ | ⟨hnone, hp⟩)
    · obtain ⟨hc, hne⟩ := List.mem_filter.mp hc
      refine ⟨Or.inl ⟨c, hc, hid, hf⟩, ?_⟩
      rw [hid]
      simpa using hne
    · exact ⟨Or.inr ⟨hnone, hp⟩, by simp [hnone]⟩
  · rintro ⟨⟨c, hc, hid, hf⟩ | ⟨hnone, hp⟩, hne⟩
    · rw [hid] at hne
      exact Or.inl ⟨c, List.mem_filter.mpr ⟨hc, by simpa using hne⟩, hid, hf⟩
    · exact Or.inr ⟨hnone, hp⟩

/-! ## Adding records -/

theorem Table.seats_addJoin_mirror {table : Table} {mirror : Join} (hm : mirror.source ≠ table.id) :
    (table.addJoin mirror).seats = table.seats := by
  have hpending : (table.addJoin mirror).pendingJoins = table.pendingJoins := by
    show (table.joins ++ [mirror]).filter (·.source = table.id) = _
    rw [List.filter_append, List.filter_cons_of_neg (by simpa using hm)]
    exact List.append_nil _
  rw [seats, hpending]
  rfl

theorem Table.mem_seats_addJoin {table : Table} {join : Join} (hj : join.source = table.id)
    {s : Seat} :
    s ∈ (table.addJoin join).seats ↔ s ∈ table.seats ∨ s = ⟨table.id, none, join⟩ := by
  have hpending : (table.addJoin join).pendingJoins = table.pendingJoins ++ [join] := by
    show (table.joins ++ [join]).filter (·.source = table.id) = _
    rw [List.filter_append, List.filter_cons_of_pos (by simpa using hj)]
    rfl
  rw [seats, hpending, List.map_append, ← List.append_assoc, List.mem_append, List.map_singleton,
    List.mem_singleton]
  rfl

theorem Table.mem_seats_addColumn {table : Table} {column : Column} {s : Seat} :
    s ∈ (table.addColumn column).seats ↔ s ∈ table.seats ∨
      ∃ join, column.foreignKey = some join ∧ s = ⟨table.id, some column.id, join⟩ := by
  obtain ⟨id, c, join⟩ := s
  rw [Table.mem_seats, Table.mem_seats]
  simp only [addColumn, List.mem_append, List.mem_singleton, Seat.mk.injEq]
  constructor
  · rintro ⟨he, ⟨old, hold | rfl, hc, hf⟩ | hp⟩
    · exact Or.inl ⟨he, Or.inl ⟨old, hold, hc, hf⟩⟩
    · exact Or.inr ⟨join, hf, he, hc, rfl⟩
    · exact Or.inl ⟨he, Or.inr hp⟩
  · rintro (⟨he, ⟨old, hold, hc, hf⟩ | hp⟩ | ⟨_, hf, he, hc, rfl⟩)
    · exact ⟨he, Or.inl ⟨old, Or.inl hold, hc, hf⟩⟩
    · exact ⟨he, Or.inr hp⟩
    · exact ⟨he, Or.inl ⟨column, Or.inr rfl, hc, hf⟩⟩

/-- The record takes the place of what the column carried. -/
theorem Table.mem_seats_setForeignKey {table : Table} (hn : (table.columns.map (·.id)).Nodup)
    {column : Column} (hc : column ∈ table.columns) {dataType : DataType} {record : Join}
    {s : Seat} :
    s ∈ (table.setForeignKey column.id dataType record).seats ↔
      s ∈ table.seats ∧ s.column ≠ some column.id ∨ s = ⟨table.id, some column.id, record⟩ := by
  obtain ⟨id, c, join⟩ := s
  rw [Table.mem_seats, Table.mem_seats]
  simp only [setForeignKey, modifyFirst_eq_map hn, List.mem_map, Seat.mk.injEq]
  constructor
  · rintro ⟨he, ⟨_, ⟨old, hold, rfl⟩, hcolumn, hf⟩ | ⟨hnone, hp⟩⟩
    · by_cases ho : old.id = column.id
      · rw [if_pos ho] at hcolumn hf
        exact Or.inr ⟨he, hcolumn.trans (congrArg some ho), (Option.some.inj hf).symm⟩
      · rw [if_neg ho] at hcolumn hf
        refine Or.inl ⟨⟨he, Or.inl ⟨old, hold, hcolumn, hf⟩⟩, ?_⟩
        rw [hcolumn]
        exact fun h => ho (Option.some.inj h)
    · exact Or.inl ⟨⟨he, Or.inr ⟨hnone, hp⟩⟩, by simp [hnone]⟩
  · rintro (⟨⟨he, ⟨old, hold, hcolumn, hf⟩ | hp⟩, hne⟩ | ⟨he, hcolumn, rfl⟩)
    · have ho : old.id ≠ column.id := fun h => hne (hcolumn.trans (congrArg some h))
      exact ⟨he, Or.inl ⟨old, ⟨old, hold, if_neg ho⟩, hcolumn, hf⟩⟩
    · exact ⟨he, Or.inr hp⟩
    · exact ⟨he, Or.inl ⟨_, ⟨column, hc, if_pos rfl⟩, hcolumn, rfl⟩⟩

namespace Schema

theorem seats_addJoin_mirror {schema : Schema} {id : TableId} {mirror : Join}
    (hm : mirror.source ≠ id) :
    (schema.modifyTable id (·.addJoin mirror)).seats = schema.seats :=
  seats_modifyTable_eq fun _ _ he => Table.seats_addJoin_mirror (he ▸ hm)

theorem seats_addMirror {schema : Schema} {join : Join} {target : JoinTarget}
    (ht : join.target = some target) : (schema.addMirror join).seats = schema.seats := by
  by_cases he : target.table = join.source
  · rw [addMirror_of_eq ht he]
  · rw [addMirror_of_ne ht he]
    exact seats_addJoin_mirror (Ne.symm he)

theorem ids_addMirror (schema : Schema) (join : Join) :
    (schema.addMirror join).tables.map (·.id) = schema.tables.map (·.id) := by
  unfold addMirror
  split
  · rfl
  · split
    · rfl
    · exact ids_modifyTable fun _ => rfl

/-! ## What edits do to seats -/

variable {schema next : Schema} {s : Seat}

theorem mem_seats_declare (hn : (schema.tables.map (·.id)).Nodup) {join : Join}
    {target : JoinTarget} (ht : join.target = some target)
    (hs : (schema.table? join.source).isSome = true) :
    s ∈ (schema.declare join).seats ↔ s ∈ schema.seats ∨ s = ⟨join.source, none, join⟩ := by
  rw [← table?_addMirror_isSome schema join] at hs
  obtain ⟨owner, howner⟩ := Option.isSome_iff_exists.mp hs
  obtain ⟨hmem, hid⟩ := mem_of_table? howner
  rw [declare, ← hid, mem_seats_change (ids_addMirror schema join ▸ hn) hmem
    (fun _ => True) (· = ⟨owner.id, none, join⟩)]
  · rw [seats_addMirror ht, and_true]
  · intro s
    rw [and_true]
    exact Table.mem_seats_addJoin hid.symm
  · exact fun _ _ _ => trivial

/-- The seat of a join that gets another record on the column that it has. -/
theorem mem_seats_onColumn (hv : schema.Valid) {record : Join} {target : JoinTarget}
    (ht : record.target = some target) {holder : Table} {column : Column}
    (hfound : schema.foreignKey? record.id = some (holder, column))
    (hs : record.source = holder.id) {dataType : DataType}
    (hnext : next = ((schema.clear record.id).modifyTable record.source
      (·.setForeignKey column.id dataType record)).addMirror record) :
    s ∈ next.seats ↔ s ∈ schema.seats ∧ s.join.id ≠ record.id ∨
      s = ⟨record.source, some column.id, record⟩ := by
  obtain ⟨hholder, hcolumn, hcarries⟩ := foreignKey?_eq_some hfound
  obtain ⟨old, hf, hold⟩ := Column.carries_iff.mp hcarries
  have hseat : ⟨holder.id, some column.id, old⟩ ∈ schema.seats :=
    mem_seats.mpr ⟨holder, hholder, Table.mem_seats.mpr ⟨rfl, Or.inl ⟨column, hcolumn, rfl, hf⟩⟩⟩
  have hcleared : holder.clear record.id ∈ (schema.clear record.id).tables :=
    List.mem_map.mpr ⟨holder, hholder, rfl⟩
  have hids : ((schema.clear record.id).tables.map (·.id)).Nodup := by
    rw [clear, mapTables, List.map_map]
    exact hv.ids
  have hcolumnIds : ((holder.clear record.id).columns.map (·.id)).Nodup :=
    (hv.tables holder hholder).columnIds
  have hid : holder.id = (holder.clear record.id).id := rfl
  rw [hnext, seats_addMirror ht, hs, hid,
    mem_seats_change hids hcleared (fun s => ¬ (s.table = holder.id ∧ s.column = some column.id))
      (· = ⟨holder.id, some column.id, record⟩)]
  · refine or_congr ?_ Iff.rfl
    rw [mem_seats_clear]
    constructor
    · rintro ⟨⟨hmem, -⟩, hother⟩
      refine ⟨hmem, fun he => hother ?_⟩
      rw [seat_unique hv hmem hseat (he.trans hold.symm)]
      exact ⟨rfl, rfl⟩
    · rintro ⟨hmem, hne⟩
      refine ⟨⟨hmem, fun _ => hne⟩, ?_⟩
      rintro ⟨htable, hat⟩
      refine hne ?_
      -- one column carries one join
      obtain ⟨t, htm, hst⟩ := mem_seats.mp hmem
      obtain ⟨hst, ⟨c, hc, hci, hcf⟩ | ⟨hnone, -⟩⟩ := Table.mem_seats.mp hst
      · have hth := eq_of_key_eq hv.ids htm hholder (hst.symm.trans htable)
        have hcc := eq_of_key_eq (hv.tables holder hholder).columnIds (hth ▸ hc) hcolumn
          (Option.some.inj (hci.symm.trans hat))
        rw [hcc, hf] at hcf
        rw [← Option.some.inj hcf, hold]
      · rw [hnone] at hat
        cases hat
  · intro s
    rw [Table.mem_seats_setForeignKey hcolumnIds hcolumn]
    refine or_congr (and_congr_right fun hmem => ?_) Iff.rfl
    have htable : s.table = holder.id := (Table.mem_seats.mp hmem).1
    simp [htable]
  · exact fun s _ hne h => hne h.1

/-- The seat of a join that gets a new column. -/
theorem mem_seats_onNewColumn (hv : schema.Valid) {record : Join} {target : JoinTarget}
    (ht : record.target = some target) (hs : (schema.table? record.source).isSome = true)
    {column : Table → Column} {id : ColumnId} (hid : ∀ t, (column t).id = id)
    (hf : ∀ t, (column t).foreignKey = some record)
    (hnext : next = ((schema.strip record.id).modifyTable record.source
      fun t => t.addColumn (column t)).addMirror record) :
    s ∈ next.seats ↔ s ∈ schema.seats ∧ s.join.id ≠ record.id ∨
      s = ⟨record.source, some id, record⟩ := by
  obtain ⟨holder, hholder⟩ := Option.isSome_iff_exists.mp hs
  obtain ⟨hmem, hsource⟩ := mem_of_table? hholder
  have hstripped : holder.strip record.id ∈ (schema.strip record.id).tables :=
    List.mem_map.mpr ⟨holder, hmem, rfl⟩
  have htable : record.source = (holder.strip record.id).id := hsource.symm
  rw [hnext, seats_addMirror ht, htable, mem_seats_change (ids_strip schema record.id ▸ hv.ids)
    hstripped (fun _ => True) (· = ⟨holder.id, some id, record⟩)]
  · rw [and_true, mem_seats_strip]
    rfl
  · intro s
    rw [and_true, Table.mem_seats_addColumn]
    refine or_congr Iff.rfl ?_
    simp only [hf, hid, Option.some.injEq, exists_eq_left']
    rfl
  · exact fun _ _ _ => trivial

end Schema

end ErModel
