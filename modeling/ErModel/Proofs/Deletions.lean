import ErModel.Proofs.Breaking
import ErModel.Proofs.EdgeSet
import ErModel.Proofs.ForeignKeys

/-!
# What deletions take with them

A deletion strips joins from all tables, one join after another, whatever the tables have to do with
them. Here it is said at once which schema that leaves. A table loses its records of these joins and
the columns that carry one, but keeps a key among those, without the foreign key; nothing else of it
changes, and nothing of the order. Since a join has one owning record, the columns that go with a
join are on one table, and a deletion fails just if one of them is referred to by a join that stays.
-/

namespace ErModel

/-- The column without the joins: if it carries one of them, it is a foreign key no more. -/
def Column.withoutAny (column : Column) (joins : List JoinId) : Column :=
  if joins.any (column.carries ·) then { column with foreignKey := none } else column

namespace Table

/-- The table without the joins, and without the columns that go with them. -/
def cut (table : Table) (joins : List JoinId) : Table :=
  { table with
    joins := table.joins.filter (·.id ∉ joins)
    columns := (table.columns.filter fun c => !c.goesWith joins).map (·.withoutAny joins) }

/-- Every record of a join that the table has, on its columns and beside them. -/
def records (table : Table) : List Join := table.columns.filterMap (·.foreignKey) ++ table.joins

end Table

theorem Column.any_carries_iff {column : Column} {joins : List JoinId} :
    joins.any (column.carries ·) = true ↔
      ∃ record, column.foreignKey = some record ∧ record.id ∈ joins := by
  simp only [List.any_eq_true, carries_iff]
  constructor
  · rintro ⟨_, hjoin, record, hf, rfl⟩
    exact ⟨record, hf, hjoin⟩
  · rintro ⟨record, hf, hjoin⟩
    exact ⟨record.id, hjoin, record, hf, rfl⟩

theorem Column.withoutAny_eq_self {column : Column} {joins : List JoinId}
    (h : ∀ join ∈ joins, column.carries join = false) : column.withoutAny joins = column :=
  if_neg (by simpa using h)

/-- Whether a column goes with joins can be seen one join at a time. -/
theorem Column.goesWith_cons (column : Column) (join : JoinId) (rest : List JoinId) :
    ((column.primaryKey || !column.carries join) && !(column.without join).goesWith rest) =
      !column.goesWith (join :: rest) := by
  cases hp : column.primaryKey with
  | true => simp [goesWith, hp]
  | false =>
      cases hc : column.carries join with
      | true => simp [goesWith, hp, hc]
      | false => simp [goesWith, without, hp, hc]

theorem Column.withoutAny_cons (column : Column) (join : JoinId) (rest : List JoinId) :
    (column.without join).withoutAny rest = column.withoutAny (join :: rest) := by
  cases hc : column.carries join with
  | true =>
      have hnone : ({ column with foreignKey := none } : Column).withoutAny rest =
          { column with foreignKey := none } := withoutAny_eq_self fun _ _ => rfl
      rw [without, if_pos hc, hnone, withoutAny, if_pos (by simp [hc])]
  | false => simp [without, withoutAny, hc]

namespace Table

/-- Cutting off a join and then others cuts off all of them. -/
theorem cut_strip (table : Table) (join : JoinId) (rest : List JoinId) :
    (table.strip join).cut rest = table.cut (join :: rest) := by
  have hjoins : (table.strip join).joins.filter (·.id ∉ rest) =
      table.joins.filter (·.id ∉ join :: rest) := by
    rw [strip, List.filter_filter]
    exact List.filter_congr fun j _ => by simp [Bool.and_comm]
  have hstays : (table.columns.filter fun c => c.primaryKey || !c.carries join).filter
      (fun c => !(c.without join).goesWith rest) =
        table.columns.filter fun c => !c.goesWith (join :: rest) := by
    rw [List.filter_filter]
    exact List.filter_congr fun c _ => (Bool.and_comm _ _).trans (c.goesWith_cons join rest)
  have hcolumns : ((table.strip join).columns.filter fun c => !c.goesWith rest).map
      (·.withoutAny rest) = (table.columns.filter fun c => !c.goesWith (join :: rest)).map
        (·.withoutAny (join :: rest)) := by
    rw [columns_strip, List.filter_map, List.map_map, ← hstays]
    exact List.map_congr_left fun c _ => c.withoutAny_cons join rest
  rw [cut, hjoins, hcolumns]
  rfl

/-- **Stripping joins one by one cuts them off at once.** -/
theorem stripAll_eq_cut (table : Table) (joins : List JoinId) :
    table.stripAll joins = table.cut joins := by
  induction joins generalizing table with
  | nil =>
      have hjoins : table.joins.filter (·.id ∉ ([] : List JoinId)) = table.joins :=
        List.filter_eq_self.mpr fun _ _ => by simp
      have hcolumns : table.columns.filter (fun c => !c.goesWith []) = table.columns :=
        List.filter_eq_self.mpr fun c _ => by simp [Column.goesWith]
      have hsame : table.columns.map (·.withoutAny []) = table.columns := List.map_id _
      rw [cut, hjoins, hcolumns, hsame]
      rfl
  | cons join rest ih => exact (ih (table.strip join)).trans (table.cut_strip join rest)

/-- It counts only which joins are cut off. -/
theorem cut_congr (table : Table) {joins joins' : List JoinId}
    (h : ∀ id, id ∈ joins ↔ id ∈ joins') : table.cut joins = table.cut joins' := by
  have hany : ∀ p : JoinId → Bool, joins.any p = joins'.any p := fun p => by
    rw [Bool.eq_iff_iff, List.any_eq_true, List.any_eq_true]
    exact exists_congr fun id => and_congr_left fun _ => h id
  simp only [cut, Column.goesWith, Column.withoutAny, hany, h]

/-- The records that are left are those of the other joins. -/
theorem mem_records_cut {table : Table} {joins : List JoinId} {record : Join} :
    record ∈ (table.cut joins).records ↔ record ∈ table.records ∧ record.id ∉ joins := by
  have hcolumns : (∃ c ∈ (table.cut joins).columns, c.foreignKey = some record) ↔
      (∃ c ∈ table.columns, c.foreignKey = some record) ∧ record.id ∉ joins := by
    constructor
    · rintro ⟨_, hc, hf⟩
      obtain ⟨c, hold, rfl⟩ := List.mem_map.mp hc
      unfold Column.withoutAny at hf
      split at hf
      · cases hf
      · rename_i hnone
        refine ⟨⟨c, (List.mem_filter.mp hold).1, hf⟩, fun hjoin => hnone ?_⟩
        exact Column.any_carries_iff.mpr ⟨record, hf, hjoin⟩
    · rintro ⟨⟨c, hc, hf⟩, hstays⟩
      have hnone : ¬ joins.any (c.carries ·) = true := fun hany => by
        obtain ⟨other, hf', hjoin⟩ := Column.any_carries_iff.mp hany
        exact hstays (Option.some.inj (hf.symm.trans hf') ▸ hjoin)
      refine ⟨c, List.mem_map.mpr ⟨c, List.mem_filter.mpr ⟨hc, ?_⟩, if_neg hnone⟩, hf⟩
      simp [Column.goesWith, hnone]
  have hrecords : ∀ t : Table, record ∈ t.records ↔
      (∃ c ∈ t.columns, c.foreignKey = some record) ∨ record ∈ t.joins := fun t => by
    rw [records, List.mem_append, List.mem_filterMap]
  rw [hrecords, hrecords, hcolumns, or_and_right, cut, List.mem_filter, decide_eq_true_eq]

/-- Stripping the join that one column carries is about that column. -/
theorem columns_strip_of_carrier {table : Table} (hn : (table.columns.map (·.id)).Nodup)
    {c : Column} (hc : c ∈ table.columns) {join : JoinId}
    (hcarries : ∀ d ∈ table.columns, d.carries join = true ↔ d.id = c.id) :
    (table.strip join).columns = if c.primaryKey then
      table.columns.map fun d => if d.id = c.id then { d with foreignKey := none } else d
      else table.columns.filter (·.id ≠ c.id) := by
  rw [columns_strip]
  cases hp : c.primaryKey with
  | true =>
      have hall : table.columns.filter (fun d => d.primaryKey || !d.carries join) =
          table.columns := List.filter_eq_self.mpr fun d hd => by
        cases hd' : d.carries join with
        | false => simp
        | true =>
            obtain rfl := eq_of_key_eq hn hd hc ((hcarries d hd).mp hd')
            simp [hp]
      rw [hall, if_pos rfl]
      refine List.map_congr_left fun d hd => ?_
      simp only [Column.without, hcarries d hd]
  | false =>
      have hothers : table.columns.filter (fun d => d.primaryKey || !d.carries join) =
          table.columns.filter (·.id ≠ c.id) := List.filter_congr fun d hd => by
        by_cases he : d.id = c.id
        · obtain rfl := eq_of_key_eq hn hd hc he
          simp [hp, (hcarries d hd).mpr rfl]
        · simp [he, mt (hcarries d hd).mp he]
      rw [hothers, if_neg Bool.false_ne_true]
      refine Eq.trans (List.map_congr_left fun d hd => ?_) (List.map_id _)
      obtain ⟨hd, hne⟩ := List.mem_filter.mp hd
      exact if_neg (mt (hcarries d hd).mp (by simpa using hne))

/-- Columns that carry none of the joins are left as they are. -/
theorem filter_columns_cut {table : Table} {joins : List JoinId} {p : ColumnId → Bool}
    (h : ∀ d ∈ table.columns, p d.id = true → ∀ join ∈ joins, d.carries join = false) :
    (table.cut joins).columns.filter (p ·.id) = table.columns.filter (p ·.id) := by
  have hids : (fun d : Column => p d.id) ∘ (fun d : Column => d.withoutAny joins) =
      fun d => p d.id := funext fun d => by
    rw [Function.comp, Column.withoutAny]
    split <;> rfl
  have hstays : (table.columns.filter fun d => !d.goesWith joins).filter (p ·.id) =
      table.columns.filter (p ·.id) := by
    rw [List.filter_filter]
    refine List.filter_congr fun d hd => ?_
    cases hp : p d.id with
    | false => rfl
    | true => simpa [Column.goesWith] using Or.inr (h d hd hp)
  rw [cut, List.filter_map, hids, hstays]
  refine Eq.trans (List.map_congr_left fun d hd => ?_) (List.map_id _)
  obtain ⟨hd, hp⟩ := List.mem_filter.mp hd
  exact Column.withoutAny_eq_self (h d hd hp)

/-- A record is an owning one or a mirror. -/
theorem mem_records_iff {table : Table} {record : Join} :
    record ∈ table.records ↔ record ∈ table.owners ∨ record ∈ table.mirrors := by
  rw [records, owners, List.mem_append, List.mem_append, or_assoc, pendingJoins, mirrors,
    List.mem_filter, List.mem_filter, ← and_or_left]
  refine or_congr Iff.rfl (and_iff_left ?_).symm
  simpa using em (record.source = table.id)

end Table

/-! ## Outcomes -/

/-- What comes of an edit when all that it names is there: a violation if it breaks the schema, and
the next schema if it does not. -/
structure Yields (r : Except EditError Schema) (breaks : Prop) (next : Schema) : Prop where
  violates_iff : Violates r ↔ breaks
  succeeds : ¬ breaks → r = .ok next

theorem yields_settle {schema : Schema} {breaks : Prop} (h : schema.Valid ↔ ¬ breaks) :
    Yields schema.settle breaks schema where
  violates_iff := by rw [Schema.violates_settle, h, Classical.not_not]
  succeeds := fun hstays => Schema.settle_of_valid (h.mpr hstays)

/-- What is left of the columns of the table that holds the join: its column is gone, or is a
foreign key no more if it is the primary key. A join that is pending has none. -/
def OwnedJoin.release (owned : OwnedJoin) (columns : List Column) : List Column :=
  match owned.column with
  | none => columns
  | some c =>
    if c.primaryKey then
      columns.map fun d => if d.id = c.id then { d with foreignKey := none } else d
    else columns.filter (·.id ≠ c.id)

/-- The column that carries `owned` goes with it, and it is the one that `other` refers to. -/
def OwnedJoin.TakesTargetOf (owned other : OwnedJoin) : Prop :=
  ∃ c, owned.column = some c ∧ c.primaryKey = false ∧
    other.join.target = some ⟨owned.holder.id, some c.id⟩

instance (owned other : OwnedJoin) : Decidable (owned.TakesTargetOf other) :=
  match h : owned.column with
  | none => isFalse fun ⟨_, hcolumn, _⟩ => by simp [h] at hcolumn
  | some c =>
    decidable_of_iff
      (c.primaryKey = false ∧ other.join.target = some ⟨owned.holder.id, some c.id⟩)
      ⟨fun hc => ⟨c, h, hc⟩, fun ⟨_, hd, hc⟩ => Option.some.inj (h.symm.trans hd) ▸ hc⟩

/-- The table is at one of the ends of the join. -/
def OwnedJoin.HasEnd (owned : OwnedJoin) (table : TableId) : Prop :=
  owned.holder.id = table ∨ owned.join.peer? = some table

instance (owned : OwnedJoin) (table : TableId) : Decidable (owned.HasEnd table) :=
  inferInstanceAs (Decidable (_ ∨ _))

namespace Schema

variable {schema : Schema}

/-- What is orphaned refers to the column of a join that is stripped. -/
theorem orphans_iff {joins : List JoinId} : schema.Orphans joins ↔
    ∃ o ∈ schema.owningJoins, o.join.id ∈ joins ∧
      ∃ p ∈ schema.owningJoins, p.join.id ∉ joins ∧ o.TakesTargetOf p := by
  constructor
  · rintro ⟨p, hp, hstays, ⟨table, column⟩, htarget, t, ht, rfl, c, hc, rfl, hgoes⟩
    rw [Column.goesWith, Bool.and_eq_true, Bool.not_eq_true', Column.any_carries_iff] at hgoes
    obtain ⟨hkey, record, hf, hjoin⟩ := hgoes
    exact ⟨_, mem_owningJoins_of_column ht hc hf, hjoin, p, hp, hstays, c, rfl, hkey, htarget⟩
  · rintro ⟨o, ho, hjoin, p, hp, hstays, c, hcolumn, hkey, htarget⟩
    obtain ⟨hholder, ⟨d, hd, hcolumn', hf⟩ | ⟨hnone, -⟩⟩ := mem_owningJoins ho
    · obtain rfl : d = c := Option.some.inj (hcolumn'.symm.trans hcolumn)
      refine ⟨p, hp, hstays, _, htarget, o.holder, hholder, rfl, d, hd, rfl, ?_⟩
      rw [Column.goesWith, hkey, Bool.not_false, Bool.true_and, Column.any_carries_iff]
      exact ⟨_, hf, hjoin⟩
    · rw [hnone] at hcolumn
      cases hcolumn

/-! ## Tables -/

/-- The joins with the table at one of their ends. -/
def joinsAt (schema : Schema) (table : TableId) : List JoinId :=
  (schema.owningJoins.filter (·.HasEnd table)).map (·.join.id)

/-- The schema without the table, and without the joins at whose ends it is. -/
def cascaded (schema : Schema) (table : TableId) : Schema :=
  ⟨(schema.tables.filter (·.id ≠ table)).map (·.cut (schema.joinsAt table))⟩

/-- A record of a join has the table for its source, or refers to it. -/
def RefersTo (schema : Schema) (table : TableId) : Prop :=
  ∃ u ∈ schema.tables, ∃ record ∈ u.records, record.source = table ∨ record.peer? = some table

instance (schema : Schema) (table : TableId) : Decidable (schema.RefersTo table) :=
  inferInstanceAs (Decidable (∃ u ∈ schema.tables, ∃ record ∈ u.records, _ ∨ _))

theorem mem_joinsAt (hv : schema.Valid) {o : OwnedJoin} (ho : o ∈ schema.owningJoins)
    {table : TableId} : o.join.id ∈ schema.joinsAt table ↔ o.HasEnd table := by
  rw [joinsAt, List.mem_map]
  constructor
  · rintro ⟨p, hp, hid⟩
    obtain ⟨hp, hend⟩ := List.mem_filter.mp hp
    rw [← eq_of_key_eq hv.ownerIds hp ho hid]
    simpa using hend
  · exact fun hend => ⟨o, List.mem_filter.mpr ⟨ho, by simpa using hend⟩, rfl⟩

section

variable {t : Table}

theorem deleteTable_of_mem (hv : schema.Valid) (ht : t ∈ schema.tables) :
    schema.deleteTable t.id = (schema.withoutTable t.id).settle := by
  rw [deleteTable, requireTable, table?_of_mem hv.ids ht]
  rfl

/-- Where no mirror is out of place, a table touches the joins at whose ends it is. -/
theorem mem_touching_iff (hv : schema.Valid) (hm : schema.MirrorsAtPeers) {table : TableId}
    {id : JoinId} : id ∈ schema.joinsTouching table ↔ id ∈ schema.joinsAt table := by
  rw [touching_iff_seat hv hm, seats_eq, joinsAt, List.mem_map]
  constructor
  · rintro ⟨s, hs, hid, hend⟩
    obtain ⟨o, ho, rfl⟩ := List.mem_map.mp hs
    have hend : o.HasEnd table := hend
    exact ⟨o, List.mem_filter.mpr ⟨ho, by simpa using hend⟩, hid⟩
  · rintro ⟨o, ho, hid⟩
    obtain ⟨ho, hend⟩ := List.mem_filter.mp ho
    rw [decide_eq_true_eq] at hend
    exact ⟨o.seat, List.mem_map.mpr ⟨o, ho, rfl⟩, hid, hend⟩

theorem withoutTable_eq_cascaded (hv : schema.Valid) (hm : schema.MirrorsAtPeers)
    (table : TableId) : schema.withoutTable table = schema.cascaded table := by
  have hids : (fun t : Table => decide (t.id ≠ table)) ∘
      (fun t : Table => t.stripAll (schema.joinsTouching table)) =
        fun t => decide (t.id ≠ table) := funext fun t => by simp
  rw [withoutTable, stripAll_eq, mapTables, List.filter_map, hids, cascaded]
  refine congrArg Schema.mk (List.map_congr_left fun t _ => ?_)
  exact (t.stripAll_eq_cut _).trans (t.cut_congr fun id => mem_touching_iff hv hm)

/-- What a table that goes takes from a join that stays is a column of another table. -/
theorem orphans_touching_iff (hv : schema.Valid) (hm : schema.MirrorsAtPeers) {table : TableId} :
    schema.Orphans (schema.joinsTouching table) ↔
      ∃ o ∈ schema.owningJoins, o.HasEnd table ∧ o.holder.id ≠ table ∧
        ∃ p ∈ schema.owningJoins, ¬ p.HasEnd table ∧ o.TakesTargetOf p := by
  have htouching : ∀ {o}, o ∈ schema.owningJoins →
      (o.join.id ∈ schema.joinsTouching table ↔ o.HasEnd table) := fun ho =>
    (mem_touching_iff hv hm).trans (mem_joinsAt hv ho)
  rw [orphans_iff]
  constructor
  · rintro ⟨o, ho, hgoes, p, hp, hstays, htakes⟩
    rw [htouching ho] at hgoes
    rw [htouching hp] at hstays
    refine ⟨o, ho, hgoes, fun hholder => hstays ?_, p, hp, hstays, htakes⟩
    -- what refers to a column of the table has the table at its end
    obtain ⟨c, -, -, htarget⟩ := htakes
    exact Or.inr (by rw [Join.peer?, htarget, ← hholder]; rfl)
  · rintro ⟨o, ho, hgoes, -, p, hp, hstays, htakes⟩
    exact ⟨o, ho, (htouching ho).mpr hgoes, p, hp, fun h => hstays ((htouching hp).mp h), htakes⟩

/-- A record that refers to the table and is left is a mirror with a target. An owning record that
refers to it goes with it, and so does a mirror that comes from it. -/
theorem refersTo_cascaded_iff (hv : schema.Valid) (hm : schema.MirrorsAtPeers) {table : TableId} :
    (schema.cascaded table).RefersTo table ↔ ∃ m ∈ schema.allMirrors,
      m.2.id ∉ schema.joinsAt table ∧ m.2.peer? = some table := by
  constructor
  · rintro ⟨_, hcut, record, hrecord, hrefers⟩
    obtain ⟨u, hleft, rfl⟩ := List.mem_map.mp hcut
    obtain ⟨hu, hne⟩ := List.mem_filter.mp hleft
    rw [decide_eq_true_eq] at hne
    obtain ⟨hrecord, hstays⟩ := Table.mem_records_cut.mp hrecord
    rcases Table.mem_records_iff.mp hrecord with howner | hmirror
    · -- an owning record has the table at its end if it refers to it
      obtain ⟨o, ho, he⟩ := exists_owned (mem_owners.mpr ⟨u, hu, rfl, howner⟩ :
        (u.id, record) ∈ schema.owners)
      obtain ⟨hholder, rfl⟩ := Prod.mk.inj he
      rw [mem_joinsAt hv ho] at hstays
      rcases hrefers with hsource | hpeer
      · exact absurd (hholder.symm.trans ((hv.owners o ho).source.symm.trans hsource)) hne
      · exact absurd (Or.inr hpeer) hstays
    · have hmem : (u, record) ∈ schema.allMirrors := mem_allMirrors.mpr ⟨hu, hmirror⟩
      refine ⟨_, hmem, hstays, hrefers.resolve_left fun hsource => hstays ?_⟩
      obtain ⟨o, ho, hid, hholder⟩ := owner_of_mirror hv hmem
      rw [← hid, mem_joinsAt hv ho]
      exact Or.inl (hholder.symm.trans hsource)
  · rintro ⟨⟨u, record⟩, hmem, hstays, hpeer⟩
    obtain ⟨hu, hmirror⟩ := mem_allMirrors.mp hmem
    -- the table that goes holds mirrors of its own joins only
    have hne : u.id ≠ table := by
      rintro rfl
      obtain ⟨o, ho, hid, -⟩ := owner_of_mirror hv hmem
      refine hstays ?_
      rw [← hid, mem_joinsAt hv ho]
      exact Or.inr (hm _ hmem o ho hid)
    refine ⟨_, List.mem_map.mpr ⟨u, List.mem_filter.mpr ⟨hu, by simpa using hne⟩, rfl⟩, _, ?_,
      Or.inr hpeer⟩
    exact Table.mem_records_cut.mpr ⟨Table.mem_records_iff.mpr (Or.inr hmirror), hstays⟩

/-- **Deleting a table takes the joins at whose ends it is, and nothing else.** It fails just if a
column that goes with one of these, on another table, is referred to by a join that is none of them.
A record that still refers to the table is a mirror that has a target, as no mirror should. -/
theorem deleteTable_cascades (hv : schema.validate = .ok ()) (hm : schema.MirrorsAtPeers)
    (ht : t ∈ schema.tables) :
    Yields (schema.deleteTable t.id)
      (∃ o ∈ schema.owningJoins, o.HasEnd t.id ∧ o.holder.id ≠ t.id ∧
        ∃ p ∈ schema.owningJoins, ¬ p.HasEnd t.id ∧ o.TakesTargetOf p)
      (schema.cascaded t.id) ∧
    ((schema.cascaded t.id).RefersTo t.id ↔ ∃ m ∈ schema.allMirrors,
      m.2.id ∉ schema.joinsAt t.id ∧ m.2.peer? = some t.id) := by
  have hv := validate_iff.mp hv
  refine ⟨?_, refersTo_cascaded_iff hv hm⟩
  rw [deleteTable_of_mem hv ht, ← withoutTable_eq_cascaded hv hm]
  refine yields_settle ?_
  rw [withoutTable_valid_iff hv, orphans_touching_iff hv hm]

/-- Users, and what refers to them: posts by a column, profiles by their key, tags by a join that is
pending, and users by another one. Posts are to have tags. -/
def hubOfUsers : Schema :=
  let toUsers (source : TableId) (kind : JoinKind) : Join :=
    (configTo ⟨"u"⟩ kind).record (.between source ⟨"u"⟩) source ⟨"u"⟩ ⟨"u1"⟩
  let tagged := (configTo ⟨"g"⟩ .oneToOne).record (.between ⟨"p"⟩ ⟨"g"⟩) ⟨"p"⟩ ⟨"g"⟩ ⟨"g1"⟩
  let users := Table.seeded ⟨"u"⟩ ⟨"u1"⟩ "User" .uuid
  let posts := (Table.seeded ⟨"p"⟩ ⟨"p1"⟩ "Post" .uuid).addColumn
    (Column.foreign ⟨"p2"⟩ ⟨"p"⟩ "userId" .uuid (toUsers ⟨"p"⟩ .manyToOne))
  let profiles := (Table.seeded ⟨"f"⟩ ⟨"f1"⟩ "Profile" .uuid).setForeignKey ⟨"f1"⟩ .uuid
    (toUsers ⟨"f"⟩ .oneToOne)
  let tags := Table.seeded ⟨"g"⟩ ⟨"g1"⟩ "Tag" .uuid
  let tables := (((empty.append users).append posts).append profiles).append tags
  let configured := (tables.addMirror (toUsers ⟨"p"⟩ .manyToOne)).addMirror
    (toUsers ⟨"f"⟩ .oneToOne)
  ((configured.declare (toUsers ⟨"g"⟩ .oneToOne)).declare (toUsers ⟨"u"⟩ .oneToOne)).declare tagged

/-- Without the users, posts have no foreign key, profiles keep their key, and only the tags of
posts are left of the joins. -/
theorem hubOfUsers_cascades : hubOfUsers.validate = .ok () ∧ hubOfUsers.MirrorsAtPeers ∧
    hubOfUsers.deleteTable ⟨"u"⟩ = .ok (hubOfUsers.cascaded ⟨"u"⟩) ∧
    ¬ (hubOfUsers.cascaded ⟨"u"⟩).RefersTo ⟨"u"⟩ ∧
    (hubOfUsers.cascaded ⟨"u"⟩).tables.map (fun t => t.columns.map (·.id)) =
      [[⟨"p1"⟩], [⟨"f1"⟩], [⟨"g1"⟩]] ∧
    (hubOfUsers.cascaded ⟨"u"⟩).owningJoins.map (·.join.id) = [⟨"p->g"⟩] := by
  have hvalidate : hubOfUsers.validate = .ok () := ok_of_toOption (by decide +kernel)
  have hplaced : hubOfUsers.MirrorsAtPeers := by
    unfold MirrorsAtPeers
    decide +kernel
  obtain ⟨users, husers, hid⟩ : ∃ t ∈ hubOfUsers.tables, t.id = ⟨"u"⟩ := by decide +kernel
  obtain ⟨hyields, hrefers⟩ := deleteTable_cascades hvalidate hplaced husers
  rw [hid] at hyields hrefers
  have hnone : ¬ ∃ m ∈ hubOfUsers.allMirrors,
      m.2.id ∉ hubOfUsers.joinsAt ⟨"u"⟩ ∧ m.2.peer? = some ⟨"u"⟩ := by decide +kernel
  exact ⟨hvalidate, hplaced, hyields.succeeds (by decide +kernel), fun h => hnone (hrefers.mp h),
    by decide +kernel, by decide +kernel⟩

/-- Posts are to have a user, and the mirror of that on the users refers to the tags. -/
def usersNotingTags : Schema :=
  let author := (configTo ⟨"a"⟩ .oneToOne).record (.between ⟨"b"⟩ ⟨"a"⟩) ⟨"b"⟩ ⟨"a"⟩ ⟨"a1"⟩
  let users := (Table.seeded ⟨"a"⟩ ⟨"a1"⟩ "User" .uuid).addJoin
    { author.mirror with target := some ⟨⟨"c"⟩, some ⟨"c1"⟩⟩ }
  let posts := (Table.seeded ⟨"b"⟩ ⟨"b1"⟩ "Post" .uuid).addJoin author
  let tags := Table.seeded ⟨"c"⟩ ⟨"c1"⟩ "Tag" .uuid
  ⟨[users, posts, tags]⟩

/-- The tags are deleted, and the mirror goes on to refer to them. -/
theorem usersNotingTags_refers : usersNotingTags.validate = .ok () ∧
    usersNotingTags.MirrorsAtPeers ∧ ∃ next, usersNotingTags.deleteTable ⟨"c"⟩ = .ok next ∧
      next.tables.map (·.id) = [⟨"a"⟩, ⟨"b"⟩] ∧ next.RefersTo ⟨"c"⟩ := by
  have hdeleted : (usersNotingTags.deleteTable ⟨"c"⟩).toOption =
      some ⟨usersNotingTags.tables.take 2⟩ := by decide +kernel
  refine ⟨ok_of_toOption (by decide +kernel), ?_, _, ok_of_toOption hdeleted, by decide +kernel,
    by decide +kernel⟩
  unfold MirrorsAtPeers
  decide +kernel

end

/-! ## Joins -/

section

variable {o : OwnedJoin}

/-- The schema without the join. -/
def withoutJoin (schema : Schema) (owned : OwnedJoin) : Schema :=
  schema.mapTables fun u =>
    { u with
      joins := u.joins.filter (·.id ≠ owned.join.id)
      columns := if u.id = owned.holder.id then owned.release u.columns else u.columns }

theorem strip_eq_withoutJoin (hv : schema.Valid) (ho : o ∈ schema.owningJoins) :
    schema.strip o.join.id = schema.withoutJoin o := by
  obtain ⟨hholder, howner⟩ := mem_owningJoins ho
  refine congrArg Schema.mk (List.map_congr_left fun u hu => ?_)
  have hcolumns : (u.strip o.join.id).columns =
      if u.id = o.holder.id then o.release u.columns else u.columns := by
    rcases howner with ⟨c, hc, hcolumn, hf⟩ | ⟨hnone, -⟩
    · have hc' : c.carries o.join.id = true := by simp [Column.carries, hf]
      by_cases he : u.id = o.holder.id
      · obtain rfl := eq_of_key_eq hv.ids hu hholder he
        rw [if_pos rfl, OwnedJoin.release, hcolumn]
        refine Table.columns_strip_of_carrier (hv.tables _ hu).columnIds hc fun d hd =>
          ⟨fun hd' => (column_of_carries hv hu hu hd hc hd' hc').2, fun hid => ?_⟩
        rwa [eq_of_key_eq (hv.tables _ hu).columnIds hd hc hid]
      · rw [if_neg he]
        refine Table.columns_strip_of_uncarried fun d hd => ?_
        exact eq_false_of_ne_true fun hd' =>
          he (column_of_carries hv hu hholder hd hc hd' hc').1
    · -- no column carries a pending join
      have hsame : (u.strip o.join.id).columns = u.columns :=
        Table.columns_strip_of_uncarried fun d hd => uncarried_of_pending hv ho hnone hu hd
      rw [hsame, OwnedJoin.release, hnone, ite_self]
  rw [← hcolumns]
  rfl

theorem deleteJoin_of_owner (ho : o ∈ schema.owningJoins) :
    schema.deleteJoin o.join.id = (schema.strip o.join.id).settle := by
  have hcontains : schema.containsJoin o.join.id = true :=
    List.any_eq_true.mpr ⟨o, ho, by simp⟩
  rw [deleteJoin, hcontains]
  rfl

theorem orphans_join_iff (hv : schema.Valid) (ho : o ∈ schema.owningJoins) :
    schema.Orphans [o.join.id] ↔
      ∃ p ∈ schema.owningJoins, p.join.id ≠ o.join.id ∧ o.TakesTargetOf p := by
  simp only [orphans_iff, List.mem_singleton]
  constructor
  · rintro ⟨o', ho', hid, hp⟩
    obtain rfl := eq_of_key_eq hv.ownerIds ho' ho hid
    exact hp
  · exact fun hp => ⟨o, ho, rfl, hp⟩

/-- A join is unknown just if it has no owning record: without one it has no mirror either. -/
theorem deleteJoin_unknown_iff (hv : schema.Valid) {join : JoinId} :
    schema.deleteJoin join = .error (.unknownJoin join) ↔
      ∀ o ∈ schema.owningJoins, o.join.id ≠ join := by
  constructor
  · intro h o ho hid
    rw [← hid, deleteJoin_of_owner ho, settle] at h
    split at h <;> cases h
  · intro hnone
    have hcontains : schema.containsJoin join = false := by
      rw [containsJoin, List.any_eq_false]
      simpa using hnone
    have hmirrors : schema.mirrors join = [] := by
      rw [mirrors_eq_filter]
      refine List.filter_eq_nil_iff.mpr fun m hm hid => ?_
      obtain ⟨o, ho, hoid, -⟩ := owner_of_mirror hv hm
      exact hnone o ho (hoid.trans (of_decide_eq_true hid))
    rw [deleteJoin, hcontains, hmirrors]
    rfl

end

/-! ## Columns -/

section

variable {t : Table} {c : Column}

/-- The schema without the column, and without the join that it carries. -/
def withoutCarrier (schema : Schema) (table : TableId) (column : Column) : Schema :=
  schema.mapTables fun u =>
    { u with
      joins := u.joins.filter (!column.carries ·.id)
      columns := if u.id = table then u.columns.filter (·.id ≠ column.id) else u.columns }

theorem withoutColumn_eq (hv : schema.Valid) (ht : t ∈ schema.tables) (hc : c ∈ t.columns) :
    schema.withoutColumn t.id c = schema.withoutCarrier t.id c := by
  let joins := (c.foreignKey.map (·.id)).toList
  have huncarried : ∀ u ∈ schema.tables, ∀ d ∈ u.columns, (u.id = t.id → d.id ≠ c.id) →
      ∀ join ∈ joins, d.carries join = false := by
    intro u hu d hd hne join hjoin
    refine eq_false_of_ne_true fun hcarries => ?_
    obtain ⟨hid, hcid⟩ := column_of_carries hv hu ht hd hc hcarries (mem_carried_iff.mp hjoin)
    exact hne hid hcid
  have htables : (schema.withoutColumn t.id c).tables =
      (schema.stripAll joins).tables.map fun u =>
        if u.id = t.id then { u with columns := u.columns.filter (·.id ≠ c.id) } else u :=
    tables_modifyTable (ids_stripAll schema joins ▸ hv.ids) t.id _
  refine congrArg Schema.mk (htables.trans ?_)
  rw [stripAll_eq, mapTables, List.map_map]
  refine List.map_congr_left fun u hu => ?_
  have hjoins : u.joins.filter (·.id ∉ joins) = u.joins.filter (!c.carries ·.id) :=
    List.filter_congr fun j _ => by
      have hcarried : j.id ∈ joins ↔ c.carries j.id = true := mem_carried_iff
      simp [hcarried]
  rw [Function.comp, Table.id_stripAll, Table.stripAll_eq_cut, ← hjoins]
  by_cases he : u.id = t.id
  · have hcolumns : (u.cut joins).columns.filter (·.id ≠ c.id) =
        u.columns.filter (·.id ≠ c.id) :=
      Table.filter_columns_cut (p := (· ≠ c.id)) fun d hd hne =>
        huncarried u hu d hd fun _ => by simpa using hne
    rw [if_pos he, if_pos he, hcolumns]
    rfl
  · have hcolumns : (u.cut joins).columns = u.columns := by
      rw [← Table.stripAll_eq_cut]
      exact Table.columns_stripAll_of_uncarried fun d hd =>
        huncarried u hu d hd fun hid => absurd hid he
    rw [if_neg he, if_neg he, ← hcolumns]
    rfl

theorem deleteColumn_of_mem (hv : schema.Valid) (ht : t ∈ schema.tables) (hc : c ∈ t.columns)
    (hp : c.primaryKey = false) :
    schema.deleteColumn t.id c.id = (schema.withoutColumn t.id c).settle := by
  have hcolumn : t.column? c.id = some c := find?_key (hv.tables t ht).columnIds hc
  have hdecided : Decided (schema.withoutColumn t.id c).settle := by
    unfold settle
    split
    · exact Or.inl ⟨_, rfl⟩
    · exact Or.inr ⟨_, rfl⟩
  exact (deleteColumn_iff hdecided).mpr ⟨t, c, table?_of_mem hv.ids ht, hcolumn, hp, rfl⟩

end

/-- **Deleting a join or a column removes just that.** A join is unknown if it has no owning record.
If it has one, its records go, and its column, unless that is a key, which is released; it fails if
another join refers to the column that was to go. A column that is no key goes with the records of
the join that it carries, and fails to if another join refers to it. -/
theorem deletions_exact (hv : schema.validate = .ok ()) :
    (∀ join, schema.deleteJoin join = .error (.unknownJoin join) ↔
      ∀ o ∈ schema.owningJoins, o.join.id ≠ join) ∧
    (∀ o ∈ schema.owningJoins, Yields (schema.deleteJoin o.join.id)
      (∃ p ∈ schema.owningJoins, p.join.id ≠ o.join.id ∧ o.TakesTargetOf p)
      (schema.withoutJoin o)) ∧
    ∀ t ∈ schema.tables, ∀ c ∈ t.columns, c.primaryKey = false →
      Yields (schema.deleteColumn t.id c.id) (schema.RefersOtherwise t.id c)
        (schema.withoutCarrier t.id c) := by
  have hv := validate_iff.mp hv
  refine ⟨fun join => deleteJoin_unknown_iff hv, fun o ho => ?_, fun t ht c hc hp => ?_⟩
  · rw [deleteJoin_of_owner ho, ← strip_eq_withoutJoin hv ho]
    refine yields_settle ?_
    rw [← orphans_join_iff hv ho]
    exact stripAll_valid_iff hv [o.join.id]
  · rw [deleteColumn_of_mem hv ht hc hp, ← withoutColumn_eq hv ht hc]
    exact yields_settle (withoutColumn_valid_iff hv ht hc hp)

/-- Comments lose the join to posts with its column, and the slug that it refers to cannot go. -/
theorem commentsBySlug_deletions : commentsBySlug.validate = .ok () ∧
    commentsBySlug.deleteJoin ⟨"p->c"⟩ = .error (.unknownJoin ⟨"p->c"⟩) ∧
    (∃ next, commentsBySlug.deleteJoin ⟨"c->p"⟩ = .ok next ∧
      next.tables.map (fun t => t.columns.map (·.id)) = [[⟨"p1"⟩, ⟨"p2"⟩], [⟨"c1"⟩]] ∧
      next.tables.flatMap (·.records) = []) ∧
    Violates (commentsBySlug.deleteColumn ⟨"p"⟩ ⟨"p2"⟩) := by
  have hvalidate : commentsBySlug.validate = .ok () := ok_of_toOption (by decide +kernel)
  obtain ⟨hunknown, hjoins, hcolumns⟩ := deletions_exact hvalidate
  refine ⟨hvalidate, (hunknown _).mpr (by decide +kernel), ?_, ?_⟩
  · obtain ⟨about, habout, hid⟩ : ∃ o ∈ commentsBySlug.owningJoins,
        o.join.id = ⟨"c->p"⟩ := by decide +kernel
    have hafter : ∀ o ∈ commentsBySlug.owningJoins,
        (¬ ∃ p ∈ commentsBySlug.owningJoins, p.join.id ≠ o.join.id ∧ o.TakesTargetOf p) ∧
        (commentsBySlug.withoutJoin o).tables.map (fun t => t.columns.map (·.id)) =
          [[⟨"p1"⟩, ⟨"p2"⟩], [⟨"c1"⟩]] ∧
        (commentsBySlug.withoutJoin o).tables.flatMap (·.records) = [] := by decide +kernel
    obtain ⟨hfree, hleft⟩ := hafter about habout
    exact ⟨_, hid ▸ (hjoins about habout).succeeds hfree, hleft⟩
  · obtain ⟨posts, hposts, slug, hslug, hid, hcid, hp⟩ : ∃ t ∈ commentsBySlug.tables,
        ∃ c ∈ t.columns, t.id = ⟨"p"⟩ ∧ c.id = ⟨"p2"⟩ ∧ c.primaryKey = false := by
      decide +kernel
    have hrefers : ∀ t ∈ commentsBySlug.tables, ∀ c ∈ t.columns, t.id = ⟨"p"⟩ → c.id = ⟨"p2"⟩ →
        ∃ o ∈ commentsBySlug.owningJoins, c.carries o.join.id = false ∧
          o.join.target = some ⟨t.id, some c.id⟩ := by decide +kernel
    have hyields := hcolumns posts hposts slug hslug hp
    rw [← hid, ← hcid]
    exact hyields.violates_iff.mpr (hrefers posts hposts slug hslug hid hcid)

end Schema

end ErModel
