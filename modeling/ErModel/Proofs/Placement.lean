import ErModel.Proofs.Edits

/-!
# Where mirrors are

A schema that is valid may still lack a mirror, or have it on the wrong table: validity only asks
that a mirror agrees with the owning record of its join. What edits keep is stronger. The mirrors of
a schema are exactly those that its owning records ask for, each on the table referred to; and no
owning record is without a target. It is enough to look at the two lists of records, and most edits
do one of two things to them: they drop all records of some joins, or they add an owning record and
the mirror that it asks for.
-/

namespace ErModel

/-- The mirror that an owning record asks for, beside the table that is to hold it. A record that
refers to the table that holds it asks for none. -/
def wantedMirror? (o : TableId × Join) : Option (TableId × Join) :=
  match o.2.target with
  | none => none
  | some target => if target.table = o.1 then none else some (target.table, o.2.mirror)

theorem wantedMirror?_eq_some {o m : TableId × Join} (h : wantedMirror? o = some m) :
    m.2 = o.2.mirror := by
  unfold wantedMirror? at h
  split at h
  · cases h
  · split at h
    · cases h
    · cases h
      rfl

theorem wantedMirror?_id {o m : TableId × Join} (h : wantedMirror? o = some m) :
    m.2.id = o.2.id := by
  rw [wantedMirror?_eq_some h, Join.mirror_id]

/-- Every owning record has a target, and the mirrors are those that the owning records ask for. -/
structure MirrorsMatch (owners mirrors : List (TableId × Join)) : Prop where
  targets : ∀ o ∈ owners, o.2.target.isSome = true
  mirrors : mirrors.Perm (owners.filterMap wantedMirror?)

namespace MirrorsMatch

variable {owners mirrors : List (TableId × Join)}

theorem nil : MirrorsMatch [] [] := ⟨by simp, .nil⟩

theorem perm (h : MirrorsMatch owners mirrors) {owners' mirrors' : List (TableId × Join)}
    (ho : owners'.Perm owners) (hm : mirrors'.Perm mirrors) : MirrorsMatch owners' mirrors' :=
  ⟨fun o hmem => h.targets o (ho.mem_iff.mp hmem),
    (hm.trans h.mirrors).trans (ho.symm.filterMap _)⟩

/-- All records of some joins are dropped. -/
theorem filter (h : MirrorsMatch owners mirrors) (p : JoinId → Bool) :
    MirrorsMatch (owners.filter (p ·.2.id)) (mirrors.filter (p ·.2.id)) := by
  refine ⟨fun o ho => h.targets o (List.mem_filter.mp ho).1, ?_⟩
  refine (h.mirrors.filter _).trans (List.Perm.of_eq ?_)
  rw [List.filter_filterMap, List.filterMap_filter]
  congr 1
  funext o
  cases hw : wantedMirror? o with
  | none => simp
  | some m => cases hp : p o.2.id <;> simp [wantedMirror?_id hw, hp]

/-- An owning record is added, and the mirror that it asks for. -/
theorem cons (h : MirrorsMatch owners mirrors) {o : TableId × Join}
    (ho : o.2.target.isSome = true) :
    MirrorsMatch (o :: owners) ((wantedMirror? o).toList ++ mirrors) := by
  refine ⟨?_, ?_⟩
  · rw [List.forall_mem_cons]
    exact ⟨ho, h.targets⟩
  · cases hw : wantedMirror? o with
    | none => rw [List.filterMap_cons_none hw]; exact h.mirrors
    | some m => rw [List.filterMap_cons_some hw]; exact h.mirrors.cons m

/-- The records get new names, and mirrors are asked for under these. -/
theorem map (h : MirrorsMatch owners mirrors) {f : TableId × Join → TableId × Join}
    (ht : ∀ o ∈ owners, (f o).2.target.isSome = true)
    (hw : ∀ o ∈ owners, wantedMirror? (f o) = (wantedMirror? o).map f) :
    MirrorsMatch (owners.map f) (mirrors.map f) := by
  refine ⟨fun o ho => ?_, ?_⟩
  · obtain ⟨old, hold, rfl⟩ := List.mem_map.mp ho
    exact ht old hold
  · refine (h.mirrors.map f).trans (List.Perm.of_eq ?_)
    clear h ht
    rw [List.map_filterMap, List.filterMap_map]
    induction owners with
    | nil => rfl
    | cons o rest ih =>
        rw [List.forall_mem_cons] at hw
        rw [List.filterMap_cons, List.filterMap_cons, Function.comp_apply, hw.1, ih hw.2]

end MirrorsMatch

/-- Every owning record of the schema has a target, and the mirrors are where they belong. -/
def Schema.MirrorsPlaced (schema : Schema) : Prop :=
  MirrorsMatch schema.owners schema.mirrorRecords

namespace Schema

/-- Mirrors in their places agree with the owning records, so only these are left to check. -/
theorem valid_of_placed {schema : Schema} (hids : (schema.tables.map (·.id)).Nodup)
    (hnames : (schema.tables.map (·.name)).Nodup) (htables : ∀ t ∈ schema.tables, t.Sound)
    (howners : ∀ o ∈ schema.owningJoins, schema.OwnerSound o)
    (hownerIds : (schema.owners.map (·.2.id)).Nodup) (hplaced : schema.MirrorsPlaced) :
    schema.Valid := by
  refine ⟨hids, hnames, htables, ownerIds_eq schema ▸ hownerIds, howners, ?_, ?_⟩
  · rw [mirrorIds_eq, (hplaced.mirrors.map _).nodup_iff]
    refine hownerIds.sublist ?_
    generalize schema.owners = owners
    induction owners with
    | nil => exact List.Sublist.slnil
    | cons o rest ih =>
        rw [List.filterMap_cons, List.map_cons]
        split
        · exact ih.cons _
        · rename_i m hm
          rw [List.map_cons, wantedMirror?_id hm]
          exact ih.cons_cons _
  · intro m hm
    have hrecord : (m.1.id, m.2) ∈ schema.mirrorRecords :=
      mirrorRecords_eq schema ▸ List.mem_map.mpr ⟨m, hm, rfl⟩
    obtain ⟨o, ho, hw⟩ := List.mem_filterMap.mp (hplaced.mirrors.mem_iff.mp hrecord)
    obtain ⟨owned, howned, rfl⟩ := List.mem_map.mp (owners_eq schema ▸ ho)
    have hmirror : owned.join.mirror = m.2 := by
      unfold wantedMirror? at hw
      split at hw
      · cases hw
      · split at hw
        · cases hw
        · exact (Prod.mk.inj (Option.some.inj hw)).2
    refine ⟨owned.join, List.mem_map.mpr ⟨owned, howned, rfl⟩, ?_⟩
    rw [← hmirror]
    exact ⟨rfl, rfl, owned.join.agreesWith_mirror⟩

theorem placed_empty : Schema.empty.MirrorsPlaced := .nil

/-- A change of the schema that the records do not see. -/
theorem placed_of_eq {schema next : Schema} (h : schema.MirrorsPlaced)
    (ho : next.owners = schema.owners) (hm : next.mirrorRecords = schema.mirrorRecords) :
    next.MirrorsPlaced :=
  h.perm (.of_eq ho) (.of_eq hm)

/-! ## Tables and columns -/

theorem placed_append {schema : Schema} (h : schema.MirrorsPlaced) {table : Table}
    (ho : table.owners = []) (hm : table.mirrors = []) : (schema.append table).MirrorsPlaced := by
  refine placed_of_eq h ?_ ?_
  · rw [owners, collect_append, ho]
    exact List.append_nil _
  · rw [mirrorRecords, collect_append, hm]
    exact List.append_nil _

/-- A copy of a table has no relationships. -/
theorem owners_copy (table : Table) (name : String) (ids : IdSupply) :
    (table.copy name ids).owners = [] := by
  rw [Table.owners, Table.copy]
  refine List.append_eq_nil_iff.mpr ⟨?_, rfl⟩
  rw [List.filterMap_eq_nil_iff]
  intro c hc
  obtain ⟨i, old, -, rfl⟩ := List.mem_mapIdx.mp hc
  rfl

theorem placed_stripAll {schema : Schema} (h : schema.MirrorsPlaced) (joins : List JoinId) :
    (schema.stripAll joins).MirrorsPlaced := by
  refine (h.filter (· ∉ joins)).perm (.of_eq ?_) (.of_eq ?_)
  · exact owners_stripAll schema joins
  · exact mirrorRecords_stripAll schema joins

/-- A table and all joins that it takes part in are removed: no record was with the table only. -/
theorem owners_deleteTable (schema : Schema) (table : TableId) :
    owners ⟨(schema.stripAll (schema.joinsTouching table)).tables.filter (·.id ≠ table)⟩ =
      schema.owners.filter (·.2.id ∉ schema.joinsTouching table) := by
  refine (collect_filter fun t ht hid => ?_).trans (owners_stripAll _ _)
  refine List.map_eq_nil_iff.mpr (List.eq_nil_iff_forall_not_mem.mpr fun join hj => ?_)
  obtain rfl : t.id = table := by simpa using hid
  have hleft : (t.id, join) ∈ _ := mem_owners.mpr ⟨t, ht, rfl, hj⟩
  rw [owners_stripAll, List.mem_filter] at hleft
  simpa [touching_of_owner hleft.1 (Or.inl rfl)] using hleft.2

theorem mirrorRecords_deleteTable {schema : Schema} (hids : (schema.tables.map (·.id)).Nodup)
    (table : TableId) : mirrorRecords
      ⟨(schema.stripAll (schema.joinsTouching table)).tables.filter (·.id ≠ table)⟩ =
      schema.mirrorRecords.filter (·.2.id ∉ schema.joinsTouching table) := by
  refine (collect_filter fun t ht hid => ?_).trans (mirrorRecords_stripAll _ _)
  refine List.map_eq_nil_iff.mpr (List.eq_nil_iff_forall_not_mem.mpr fun join hj => ?_)
  obtain rfl : t.id = table := by simpa using hid
  have hleft : (t.id, join) ∈ _ := mem_mirrorRecords.mpr ⟨t, ht, rfl, hj⟩
  rw [mirrorRecords_stripAll, List.mem_filter] at hleft
  simpa [touching_of_mirror hids hleft.1] using hleft.2

theorem placed_deleteTable {schema next : Schema} (hv : schema.Valid) (h : schema.MirrorsPlaced)
    {table : TableId} (hd : schema.deleteTable table = .ok next) : next.MirrorsPlaced := by
  obtain ⟨-, rfl⟩ := deleteTable_eq_ok hd
  refine (h.filter (· ∉ schema.joinsTouching table)).perm (.of_eq ?_) (.of_eq ?_)
  · exact owners_deleteTable schema table
  · exact mirrorRecords_deleteTable hv.ids table

theorem placed_modifyTable {schema : Schema} (h : schema.MirrorsPlaced) {table : TableId}
    {f : Table → Table} (hid : ∀ t, (f t).id = t.id)
    (ho : ∀ t ∈ schema.tables, t.id = table → (f t).owners = t.owners)
    (hm : ∀ t, (f t).mirrors = t.mirrors) : (schema.modifyTable table f).MirrorsPlaced := by
  refine placed_of_eq h ?_ ?_
  · refine collect_modifyTable_eq fun t ht he => ?_
    rw [ho t ht he, hid]
  · refine collect_modifyTable_eq fun t _ _ => ?_
    rw [hm, hid]

/-- Columns that are no foreign keys may go. -/
theorem foreignKeys_filter {columns : List Column} {p : Column → Bool}
    (h : ∀ c ∈ columns, p c = false → c.foreignKey = none) :
    (columns.filter p).filterMap (·.foreignKey) = columns.filterMap (·.foreignKey) := by
  induction columns with
  | nil => rfl
  | cons c rest ih =>
      rw [List.forall_mem_cons] at h
      cases hp : p c with
      | false =>
          rw [List.filter_cons_of_neg (by simp [hp]), ih h.2]
          exact (List.filterMap_cons_none (h.1 hp)).symm
      | true =>
          rw [List.filter_cons_of_pos hp, List.filterMap_cons, List.filterMap_cons, ih h.2]

/-- A column is removed after the join that it carries: by then it is no foreign key. -/
theorem owners_deleteColumn {schema : Schema} (hv : schema.Valid) {owner : Table} {target : Column}
    (howner : owner ∈ schema.tables) (htarget : target ∈ owner.columns) :
    ((schema.stripAll (target.foreignKey.map (·.id)).toList).modifyTable owner.id fun t =>
      { t with columns := t.columns.filter (·.id ≠ target.id) }).owners =
        (schema.stripAll (target.foreignKey.map (·.id)).toList).owners := by
  refine collect_modifyTable_eq fun t ht he => ?_
  have hsame : ∀ u ∈ schema.tables, u.id = owner.id → ∀ c ∈ u.columns, c.id = target.id →
      c = target := by
    intro u hu hid c hc hcid
    rw [eq_of_key_eq hv.ids hu howner hid] at hc
    exact eq_of_key_eq (hv.tables owner howner).columnIds hc htarget hcid
  have hnone : ∀ c ∈ t.columns, c.id = target.id → c.foreignKey = none := by
    intro c hc hcid
    cases hf : target.foreignKey with
    | none =>
        rw [hf] at ht
        rw [hsame t ht he c hc hcid, hf]
    | some join =>
        rw [hf] at ht
        obtain ⟨u, hu, rfl⟩ := List.mem_map.mp ht
        obtain ⟨old, hold, hid, hleft⟩ := Table.mem_columns_strip hc
        have holdt : old = target := hsame u hu he old hold (hid.trans hcid)
        rcases hleft with hleft | ⟨-, hcarries⟩
        · exact hleft
        · rw [holdt] at hcarries
          simp [Column.carries, hf] at hcarries
  refine congrArg (List.map fun join => (t.id, join)) ?_
  exact congrArg (· ++ t.pendingJoins)
    (foreignKeys_filter fun c hc hid => hnone c hc (by simpa using hid))

theorem placed_deleteColumn {schema next : Schema} (hv : schema.Valid) (h : schema.MirrorsPlaced)
    {table : TableId} {column : ColumnId} (hd : schema.deleteColumn table column = .ok next) :
    next.MirrorsPlaced := by
  obtain ⟨-, owner, target, howner, htarget, rfl⟩ := deleteColumn_eq_ok hd
  obtain ⟨hmem, rfl⟩ := mem_of_table? howner
  have hcolumn : target.id = column := by simpa using List.find?_some htarget
  have htmem : target ∈ owner.columns := List.mem_of_find?_eq_some htarget
  refine placed_of_eq (placed_stripAll h _) ?_ (collect_modifyTable_eq fun _ _ _ => rfl)
  exact hcolumn ▸ owners_deleteColumn hv hmem htmem

/-- The foreign keys of the columns are ones that the table has already. -/
def KeepsForeignKeys (schema : Schema) (table : TableId) (columns : List Column) : Prop :=
  ∀ c ∈ columns, ∀ join, c.foreignKey = some join →
    ∃ t, schema.table? table = some t ∧ ∃ d ∈ t.columns, d.foreignKey = some join

theorem mem_foreignKeys {columns : List Column} {join : Join} :
    join ∈ columns.filterMap (·.foreignKey) ↔ ∃ c ∈ columns, c.foreignKey = some join :=
  List.mem_filterMap

theorem mem_carried {columns : List Column} {id : JoinId} :
    id ∈ columns.filterMap (·.foreignKey.map (·.id)) ↔
      ∃ join ∈ columns.filterMap (·.foreignKey), join.id = id := by
  simp only [List.mem_filterMap, Option.map_eq_some_iff]
  constructor
  · rintro ⟨c, hc, join, hf, rfl⟩
    exact ⟨join, ⟨c, hc, hf⟩, rfl⟩
  · rintro ⟨join, ⟨c, hc, hf⟩, rfl⟩
    exact ⟨c, hc, join, hf, rfl⟩

theorem ownerIds_nodup {schema : Schema} (hv : schema.Valid) :
    (schema.owners.map (·.2.id)).Nodup := ownerIds_eq schema ▸ hv.ownerIds

theorem nodup_of_map {α β : Type} {f : α → β} {xs : List α} (h : (xs.map f).Nodup) : xs.Nodup :=
  List.Pairwise.of_map f (fun _ _ hne he => hne (congrArg f he)) h

/-- Where no foreign key is new, a join whose id is carried still is carried as it was. -/
theorem foreignKeys_kept {schema : Schema} (hv : schema.Valid) {current : Table}
    (hcurrent : current ∈ schema.tables) {columns : List Column}
    (hgiven : ∀ join ∈ columns.filterMap (·.foreignKey),
      join ∈ current.columns.filterMap (·.foreignKey)) (join : Join)
    (hd : join.id ∉ current.carriedJoins.filter
      (· ∉ columns.filterMap (·.foreignKey.map (·.id)))) :
    join ∈ columns.filterMap (·.foreignKey) ↔
      join ∈ current.columns.filterMap (·.foreignKey) := by
  have hheld : ∀ join ∈ current.columns.filterMap (·.foreignKey),
      (current.id, join) ∈ schema.owners := fun join hj =>
    mem_owners.mpr ⟨current, hcurrent, rfl, List.mem_append_left _ hj⟩
  refine ⟨hgiven join, fun hj => ?_⟩
  have hcarried : join.id ∈ columns.filterMap (·.foreignKey.map (·.id)) := by
    refine Decidable.byContradiction fun hno => hd ?_
    exact List.mem_filter.mpr ⟨mem_carried.mpr ⟨join, hj, rfl⟩, by simpa using hno⟩
  -- the record that carries it was there before, and ids tell records apart
  obtain ⟨other, hother, hid⟩ := mem_carried.mp hcarried
  have hsame := eq_of_key_eq (ownerIds_nodup hv) (hheld other (hgiven other hother))
    (hheld join hj) hid
  rw [Prod.mk.injEq] at hsame
  exact hsame.2 ▸ hother

/-- Joins that no column carries any more are dropped; the records of the others stay what they
are, although their columns may change. -/
theorem placed_replaceColumns {schema next : Schema} (hv : schema.Valid) (h : schema.MirrorsPlaced)
    {table : TableId} {given : List Column} (hk : schema.KeepsForeignKeys table given)
    (hr : schema.replaceColumns table given = .ok next) : next.MirrorsPlaced := by
  obtain ⟨hnv, current, columns, key, hcurrent, hkeys, -, hnext⟩ := replaceColumns_eq_ok hr
  have hgiven : ∀ join ∈ columns.filterMap (·.foreignKey),
      join ∈ current.columns.filterMap (·.foreignKey) := by
    intro join hj
    rw [hkeys] at hj
    obtain ⟨c, hc, hf⟩ := mem_foreignKeys.mp hj
    obtain ⟨t, ht, d, hd, hdf⟩ := hk c hc join hf
    rw [hcurrent, Option.some.injEq] at ht
    exact mem_foreignKeys.mpr ⟨d, ht ▸ hd, hdf⟩
  have hkept := foreignKeys_kept hv (mem_of_table? hcurrent).1 hgiven
  generalize current.carriedJoins.filter
    (· ∉ columns.filterMap (·.foreignKey.map (·.id))) = dropped at hnext hkept
  let change : Table → Table := fun t => { t with columns := columns, primaryKey := key }
  have hmirrors : next.mirrorRecords = schema.mirrorRecords.filter (·.2.id ∉ dropped) := by
    rw [hnext, mirrorRecords_stripAll]
    congr 1
    exact collect_modifyTable_eq fun t _ _ => rfl
  have howners : next.owners = (schema.modifyTable table change).owners.filter
      (·.2.id ∉ dropped) := by
    rw [hnext, owners_stripAll]
  obtain ⟨rest, hold, hnew⟩ := collect_modifyTable hcurrent change
    fun t => t.owners.map fun join => (t.id, join)
  refine (h.filter (· ∉ dropped)).perm ?_ (.of_eq hmirrors)
  have hsame : ∀ o : TableId × Join, o.2.id ∉ dropped →
      (o ∈ (schema.modifyTable table change).owners ↔ o ∈ schema.owners) := by
    intro o hd
    refine hnew.mem_iff.trans (Iff.trans ?_ hold.mem_iff.symm)
    rw [List.mem_append, List.mem_append, List.mem_map, List.mem_map]
    refine or_congr (exists_congr fun join => and_congr_left fun he => ?_) Iff.rfl
    rw [Table.owners, Table.owners, List.mem_append, List.mem_append,
      hkept join (by rw [← he] at hd; exact hd)]
    rfl
  -- both sides have no record twice, so it is enough that they have the same
  refine (List.perm_ext_iff_of_nodup (nodup_of_map (ownerIds_nodup hnv)) ?_).mpr ?_
  · exact (nodup_of_map (ownerIds_nodup hv)).sublist List.filter_sublist
  · intro o
    rw [howners, List.mem_filter, List.mem_filter]
    constructor
    · rintro ⟨ho, hd⟩
      exact ⟨(hsame o (by simpa using hd)).mp ho, hd⟩
    · rintro ⟨ho, hd⟩
      exact ⟨(hsame o (by simpa using hd)).mpr ho, hd⟩

/-! ## Joins -/

theorem owners_addMirror {schema : Schema} {join : Join} {target : JoinTarget}
    (ht : join.target = some target) : (schema.addMirror join).owners = schema.owners := by
  by_cases he : target.table = join.source
  · rw [addMirror_of_eq ht he]
  · rw [addMirror_of_ne ht he]
    exact owners_addJoin_mirror (Ne.symm he)

theorem wantedMirror?_self {join : Join} {target : JoinTarget} {id : TableId}
    (ht : join.target = some target) (he : target.table = id) :
    wantedMirror? (id, join) = none := by
  simp only [wantedMirror?, ht]
  exact if_pos he

theorem wantedMirror?_other {join : Join} {target : JoinTarget} {id : TableId}
    (ht : join.target = some target) (hne : target.table ≠ id) :
    wantedMirror? (id, join) = some (target.table, join.mirror) := by
  simp only [wantedMirror?, ht]
  exact if_neg hne

theorem wantedMirror?_place {join : Join} {target : JoinTarget} {id : TableId} {m : TableId × Join}
    (ht : join.target = some target) (h : wantedMirror? (id, join) = some m) :
    target.table ≠ id ∧ m = (target.table, join.mirror) := by
  by_cases he : target.table = id
  · -- a join of a table with itself has no mirror
    rw [wantedMirror?_self ht he] at h
    cases h
  · rw [wantedMirror?_other ht he] at h
    exact ⟨he, (Option.some.inj h).symm⟩

theorem mirrorRecords_addMirror {schema : Schema} {join : Join} {target : JoinTarget}
    (ht : join.target = some target) (hp : (schema.table? target.table).isSome = true) :
    (schema.addMirror join).mirrorRecords.Perm
      ((wantedMirror? (join.source, join)).toList ++ schema.mirrorRecords) := by
  by_cases he : target.table = join.source
  · rw [addMirror_of_eq ht he, wantedMirror?_self ht he]
    exact List.Perm.refl _
  · rw [addMirror_of_ne ht he, wantedMirror?_other ht he]
    obtain ⟨peer, hpeer⟩ := Option.isSome_iff_exists.mp hp
    exact mirrorRecords_addJoin_mirror hpeer (Ne.symm he)

theorem table?_addMirror_isSome (schema : Schema) (join : Join) (id : TableId) :
    ((schema.addMirror join).table? id).isSome = (schema.table? id).isSome := by
  unfold addMirror
  split
  · rfl
  · split
    · rfl
    · exact table?_modifyTable_isSome fun _ => rfl

theorem owners_declare {schema : Schema} {join : Join} {target : JoinTarget}
    (ht : join.target = some target) (hs : (schema.table? join.source).isSome = true) :
    (schema.declare join).owners.Perm ((join.source, join) :: schema.owners) := by
  rw [← table?_addMirror_isSome schema join] at hs
  obtain ⟨owner, howner⟩ := Option.isSome_iff_exists.mp hs
  refine (owners_addJoin_pending howner rfl).trans (.of_eq ?_)
  rw [owners_addMirror ht]

theorem mirrorRecords_declare {schema : Schema} {join : Join} {target : JoinTarget}
    (ht : join.target = some target) (hp : (schema.table? target.table).isSome = true) :
    (schema.declare join).mirrorRecords.Perm
      ((wantedMirror? (join.source, join)).toList ++ schema.mirrorRecords) :=
  List.Perm.trans (.of_eq (mirrorRecords_addJoin_pending rfl)) (mirrorRecords_addMirror ht hp)

/-- A pending join is declared between two tables that exist. -/
theorem placed_declare {schema : Schema} (h : schema.MirrorsPlaced) {join : Join}
    {target : JoinTarget} (ht : join.target = some target)
    (hs : (schema.table? join.source).isSome = true)
    (hp : (schema.table? target.table).isSome = true) : (schema.declare join).MirrorsPlaced :=
  (h.cons (o := (join.source, join)) (by rw [ht]; rfl)).perm (owners_declare ht hs)
    (mirrorRecords_declare ht hp)

theorem placed_connect {schema next : Schema} (h : schema.MirrorsPlaced) {source target : TableId}
    {column : Option ColumnId} {onDelete onUpdate : Action} {id : JoinId}
    (hc : schema.connect source target column onDelete onUpdate = .ok (next, id)) :
    next.MirrorsPlaced := by
  rcases connect_eq_ok hc with ⟨-, rfl⟩ | ⟨-, join, referenced, -, rfl, ht, hs, hp, rfl⟩
  · exact h
  · exact placed_declare h ht hs hp

/-- The record of the join is new, and the mirror that it asks for; the records of the other joins
are what they were. -/
theorem placed_configured {schema base next : Schema} (h : schema.MirrorsPlaced) {record : Join}
    {target : JoinTarget} (ht : record.target = some target)
    (hp : (base.table? target.table).isSome = true) (hnext : next = base.addMirror record)
    (howners : base.owners.Perm
      ((record.source, record) :: schema.owners.filter (·.2.id ≠ record.id)))
    (hmirrors : base.mirrorRecords = schema.mirrorRecords.filter (·.2.id ≠ record.id)) :
    next.MirrorsPlaced := by
  have hrest := h.filter (· ≠ record.id)
  rw [hnext]
  refine (hrest.cons (o := (record.source, record)) (by rw [ht]; rfl)).perm ?_ ?_
  · rw [owners_addMirror ht]
    exact howners
  · refine (mirrorRecords_addMirror ht hp).trans (.of_eq ?_)
    rw [hmirrors]

theorem map_collect {α β : Type} (schema : Schema) (f : α → β) (g : Table → List α) :
    (schema.collect g).map f = schema.collect fun t => (g t).map f := List.map_flatMap

/-- The column that takes the record gives up the one that it had. -/
theorem foreignKeys_setForeignKey (table : Table) {column : Column} (dataType : DataType)
    (record : Join) {old : Join} (hn : (table.columns.map (·.id)).Nodup)
    (hc : column ∈ table.columns) (hf : column.foreignKey = some old) :
    ∃ before behind, table.columns.filterMap (·.foreignKey) = before ++ old :: behind ∧
      (table.setForeignKey column.id dataType record).columns.filterMap (·.foreignKey) =
        before ++ record :: behind := by
  obtain ⟨before, behind, hsplit, hmod⟩ := modifyFirst_of_find?
    (f := fun c : Column => { c with dataType := dataType, foreignKey := some record })
    (find?_key hn hc)
  refine ⟨before.filterMap (·.foreignKey), behind.filterMap (·.foreignKey), ?_, ?_⟩
  · rw [hsplit, List.filterMap_append]
    exact congrArg _ (List.filterMap_cons_some hf)
  · rw [Table.setForeignKey, hmod, List.filterMap_append]
    rfl

section

variable {schema : Schema} {record : Join} {holder : Table} {column : Column} {dataType : DataType}

/-- The record is put on the column that carried the join before. -/
theorem owners_onColumn (hv : schema.Valid)
    (hfound : schema.foreignKey? record.id = some (holder, column))
    (hs : record.source = holder.id) :
    ((schema.clear record.id).modifyTable record.source
      (·.setForeignKey column.id dataType record)).owners.Perm
        ((record.source, record) :: schema.owners.filter (·.2.id ≠ record.id)) := by
  obtain ⟨hholder, hcolumn, hcarries⟩ := foreignKey?_eq_some hfound
  obtain ⟨old, hf, hid⟩ := Column.carries_iff.mp hcarries
  obtain ⟨before, behind, hbefore, hafter⟩ := foreignKeys_setForeignKey (holder.clear record.id)
    dataType record (hv.tables holder hholder).columnIds hcolumn hf
  have hpending : ((holder.clear record.id).setForeignKey column.id dataType record).pendingJoins =
      (holder.clear record.id).pendingJoins := rfl
  -- the table of that id is the holder, cleared
  have hsame : ∀ t ∈ (schema.clear record.id).tables, t.id = record.source →
      t = holder.clear record.id := by
    intro t ht he
    obtain ⟨u, hu, rfl⟩ := List.mem_map.mp ht
    rw [eq_of_key_eq hv.ids hu hholder (he.trans hs)]
  generalize hbase : (schema.clear record.id).modifyTable record.source
    (·.setForeignKey column.id dataType record) = base
  have hids : (base.owners.map (·.2.id)).Nodup := by
    have hmap : base.owners.map (·.2.id) = (schema.clear record.id).owners.map (·.2.id) := by
      rw [← hbase, owners, owners, map_collect, map_collect]
      refine collect_modifyTable_eq fun t ht he => ?_
      rw [hsame t ht he, List.map_map, List.map_map, Table.owners, Table.owners, hbefore, hafter,
        hpending]
      simp [hid, Table.setForeignKey]
    rw [hmap]
    refine (ownerIds_nodup hv).sublist (List.Sublist.map _ ?_)
    rw [owners, clear, collect_mapTables]
    refine collect_sublist fun t => List.Sublist.map _ ?_
    exact (List.Sublist.refl _).append ((List.filter_sublist).filter _)
  have hmem : (record.source, record) ∈ base.owners := by
    have hclear : (schema.clear record.id).table? record.source = some (holder.clear record.id) := by
      rw [table?_clear, hs, table?_of_mem hv.ids hholder]
      rfl
    rw [← hbase]
    refine mem_owners.mpr ⟨_, mem_modifyTable hclear, hs.symm, List.mem_append_left _ ?_⟩
    rw [hafter]
    exact List.mem_append_right _ List.mem_cons_self
  have hothers : base.owners.filter (·.2.id ≠ record.id) =
      schema.owners.filter (·.2.id ≠ record.id) := by
    refine Eq.trans ?_ (owners_clear schema record.id)
    rw [← hbase, owners, owners, filter_collect, filter_collect]
    refine collect_modifyTable_eq fun t ht he => ?_
    rw [hsame t ht he, List.filter_map, List.filter_map, Table.owners, Table.owners, hbefore, hafter,
      hpending]
    simp [hid, Table.setForeignKey]
  rw [← hothers]
  exact perm_cons_filter hids hmem

theorem mirrorRecords_onColumn (schema : Schema) (record : Join) (column : ColumnId)
    (dataType : DataType) :
    ((schema.clear record.id).modifyTable record.source
      (·.setForeignKey column dataType record)).mirrorRecords =
        schema.mirrorRecords.filter (·.2.id ≠ record.id) := by
  rw [← mirrorRecords_clear]
  exact collect_modifyTable_eq fun t _ _ => rfl

theorem owners_addColumn {table : Table} (hf : column.foreignKey = some record) :
    (table.addColumn column).owners.Perm (record :: table.owners) := by
  have hnew : (table.addColumn column).columns.filterMap (·.foreignKey) =
      table.columns.filterMap (·.foreignKey) ++ [record] := by
    rw [Table.addColumn, List.filterMap_append]
    exact congrArg _ (List.filterMap_cons_some hf)
  rw [Table.owners, hnew, List.append_assoc]
  exact List.perm_middle

/-- The record is put on a new column. -/
theorem owners_onNewColumn (hs : (schema.table? record.source).isSome = true)
    {made : Table → Column} (hf : ∀ t, (made t).foreignKey = some record) :
    ((schema.strip record.id).modifyTable record.source
      fun t => t.addColumn (made t)).owners.Perm
        ((record.source, record) :: schema.owners.filter (·.2.id ≠ record.id)) := by
  obtain ⟨holder, hholder⟩ := Option.isSome_iff_exists.mp hs
  have hstrip : (schema.strip record.id).table? record.source = some (holder.strip record.id) := by
    rw [table?_strip, hholder]
    rfl
  obtain ⟨rest, hold, hnew⟩ := collect_modifyTable hstrip (fun t => t.addColumn (made t))
    fun t => t.owners.map fun join => (t.id, join)
  have hmine : (((holder.strip record.id).addColumn (made (holder.strip record.id))).owners.map
      fun join => (holder.id, join)).Perm ((record.source, record) ::
        (holder.strip record.id).owners.map fun join => (holder.id, join)) := by
    rw [← (mem_of_table? hholder).2]
    exact (owners_addColumn (hf _)).map _
  refine hnew.trans ((hmine.append_right rest).trans ?_)
  rw [← owners_strip]
  exact hold.symm.cons _

theorem mirrorRecords_onNewColumn (schema : Schema) (record : Join) (made : Table → Column) :
    ((schema.strip record.id).modifyTable record.source
      fun t => t.addColumn (made t)).mirrorRecords =
        schema.mirrorRecords.filter (·.2.id ≠ record.id) := by
  rw [← mirrorRecords_strip]
  exact collect_modifyTable_eq fun t _ _ => rfl

end

/-- A foreign key is placed on the column that the join has, or else on a new one, and the mirror
that it asks for is added. -/
theorem placeForeignKey_eq {schema : Schema} {ids : IdSupply} {record : Join} {peer : Table}
    {key : Option ColumnId} (ht : record.target = some ⟨peer.id, key⟩)
    (existing : Option ColumnId) (dataType : DataType) :
    (schema.placeForeignKey ids record existing peer dataType).1 =
      (match existing with
        | some column => (schema.clear record.id).modifyTable record.source
          (·.setForeignKey column dataType record)
        | none => (schema.strip record.id).modifyTable record.source fun t =>
          t.addColumn (Column.foreign (ids.columnId 0) record.source
            (t.freeColumnName (foreignKeyName peer.name)) dataType record)).addMirror record := by
  have hmirror : ∀ base : Schema,
      (if peer.id ≠ record.source then base.modifyTable peer.id (·.addJoin record.mirror)
        else base) = base.addMirror record := by
    intro base
    by_cases he : peer.id = record.source
    · rw [if_neg (by simpa using he), addMirror_of_eq ht he]
    · rw [if_pos he, addMirror_of_ne ht he]
  cases existing with
  | some column => exact hmirror _
  | none => exact hmirror _

theorem placed_placeForeignKey {schema next : Schema} (hv : schema.Valid) (h : schema.MirrorsPlaced)
    {ids : IdSupply} {record : Join} {peer : Table} {key : ColumnId}
    {dataType : DataType} (ht : record.target = some ⟨peer.id, some key⟩)
    (hp : schema.table? peer.id = some peer) (hs : (schema.table? record.source).isSome = true)
    (hfk : ∀ t c, schema.foreignKey? record.id = some (t, c) → record.source = t.id)
    (hnext : next = (schema.placeForeignKey ids record
      ((schema.foreignKey? record.id).map (·.2.id)) peer dataType).1) : next.MirrorsPlaced := by
  rw [placeForeignKey_eq ht] at hnext
  cases hf : schema.foreignKey? record.id with
  | some found =>
      obtain ⟨holder, column⟩ := found
      rw [hf] at hnext
      refine placed_configured h ht ?_ hnext (owners_onColumn hv hf (hfk _ _ hf))
        (mirrorRecords_onColumn ..)
      refine Eq.trans (table?_modifyTable_isSome fun _ => rfl) ?_
      rw [table?_clear, Option.isSome_map, hp]
      rfl
  | none =>
      rw [hf] at hnext
      refine placed_configured h ht ?_ hnext (owners_onNewColumn hs fun _ => rfl)
        (mirrorRecords_onNewColumn ..)
      refine Eq.trans (table?_modifyTable_isSome fun _ => rfl) ?_
      rw [table?_strip, Option.isSome_map, hp]
      rfl

/-- A junction table is a new table. -/
theorem junction_new {schema next : Schema} (hnv : next.Valid) {join : JoinId} {a b junction : Table}
    {toA toB : Join}
    (hnext : next = (((schema.strip join).modifyTable a.id (·.addJoin toA.mirror)).modifyTable b.id
      (·.addJoin toB.mirror)).append junction) :
    ∀ t ∈ schema.tables, junction.id ≠ t.id := by
  let withA := (schema.strip join).modifyTable a.id (·.addJoin toA.mirror)
  let withB := withA.modifyTable b.id (·.addJoin toB.mirror)
  change next = withB.append junction at hnext
  have hidsA : withA.tables.map (·.id) = schema.tables.map (·.id) :=
    (ids_modifyTable (f := (·.addJoin toA.mirror)) fun _ => rfl).trans (ids_strip schema join)
  have hidsB : withB.tables.map (·.id) = schema.tables.map (·.id) :=
    (ids_modifyTable (f := (·.addJoin toB.mirror)) fun _ => rfl).trans hidsA
  intro t ht he
  have hids := hnv.ids
  rw [hnext, append, List.map_append, hidsB, List.nodup_append] at hids
  exact hids.2.2 t.id (List.mem_map.mpr ⟨t, ht, rfl⟩) junction.id (by simp) he.symm

section

variable {schema : Schema} {join : JoinId} {ids : IdSupply} {a b junction : Table} {toA toB : Join}

/-- A junction table brings its two owning records. -/
theorem owners_withJunction (hlinks : junction.Links ids a b toA toB) (hneA : junction.id ≠ a.id)
    (hneB : junction.id ≠ b.id) : (schema.withJunction join a b (junction, toA, toB)).owners =
      schema.owners.filter (·.2.id ≠ join) ++ [(junction.id, toA), (junction.id, toB)] := by
  rw [withJunction, owners, collect_append, hlinks.owners, ← owners_strip]
  refine congrArg (· ++ _) ?_
  refine (owners_addJoin_mirror ?_).trans (owners_addJoin_mirror ?_)
  · exact hlinks.sourceB ▸ hneB
  · exact hlinks.sourceA ▸ hneA

/-- A junction table refers to two tables, and both hold a mirror. -/
theorem mirrorRecords_withJunction (hlinks : junction.Links ids a b toA toB)
    (ha : schema.table? a.id = some a) (hb : schema.table? b.id = some b)
    (hneA : junction.id ≠ a.id) (hneB : junction.id ≠ b.id) :
    (schema.withJunction join a b (junction, toA, toB)).mirrorRecords.Perm
      ((b.id, toB.mirror) :: (a.id, toA.mirror) ::
        schema.mirrorRecords.filter (·.2.id ≠ join)) := by
  have hstripA : (schema.strip join).table? a.id = some (a.strip join) := by
    rw [table?_strip, ha]
    rfl
  have hstripB : ∃ peer,
      ((schema.strip join).modifyTable a.id (·.addJoin toA.mirror)).table? b.id = some peer := by
    refine Option.isSome_iff_exists.mp (Eq.trans (table?_modifyTable_isSome fun _ => rfl) ?_)
    rw [table?_strip, hb]
    rfl
  obtain ⟨peer, hpeer⟩ := hstripB
  rw [withJunction, mirrorRecords, collect_append, hlinks.mirrors, List.map_nil, List.append_nil,
    ← mirrorRecords_strip]
  refine (mirrorRecords_addJoin_mirror hpeer ?_).trans
    (.cons _ (mirrorRecords_addJoin_mirror hstripA ?_))
  · exact hlinks.sourceB ▸ hneB
  · exact hlinks.sourceA ▸ hneA

end

theorem placed_junction {schema next : Schema} (h : schema.MirrorsPlaced) {ids : IdSupply}
    {join : JoinId} {declaring table : TableId} {config : JoinConfig}
    (hj : schema.synthesizeJunction ids join declaring config = .ok (next, table)) :
    next.MirrorsPlaced := by
  obtain ⟨hnv, a, b, junction, toA, toB, -, -, ha, hb, hlinks, hnext⟩ :=
    synthesizeJunction_eq_ok hj
  have hnew := junction_new hnv hnext
  have hneA : junction.id ≠ a.id := hnew a (mem_of_table? ha).1
  have hneB : junction.id ≠ b.id := hnew b (mem_of_table? hb).1
  obtain ⟨keyA, htA⟩ := hlinks.targetA
  obtain ⟨keyB, htB⟩ := hlinks.targetB
  -- two records and their mirrors come to what was in place without the join
  have hone := (h.filter (· ≠ join)).cons (o := (junction.id, toA)) (by rw [htA]; rfl)
  have htwo := hone.cons (o := (junction.id, toB)) (by rw [htB]; rfl)
  rw [wantedMirror?_other htA (Ne.symm hneA)] at htwo
  rw [wantedMirror?_other htB (Ne.symm hneB)] at htwo
  rw [hnext]
  refine htwo.perm ?_ (mirrorRecords_withJunction hlinks ha hb hneA hneB)
  refine List.Perm.trans (.of_eq (owners_withJunction hlinks hneA hneB)) ?_
  exact List.perm_append_comm.trans (List.Perm.swap ..)

theorem placed_configureJoin {schema next : Schema} (hv : schema.Valid) (h : schema.MirrorsPlaced)
    {ids : IdSupply} {join : JoinId} {config : JoinConfig} {configured : Configured}
    (hc : schema.configureJoin ids join config = .ok (next, configured)) : next.MirrorsPlaced := by
  obtain ⟨declaring, -, ⟨-, table, hj⟩ | ⟨-, -, hplaced⟩⟩ := configureJoin_eq_ok hc
  · exact placed_junction h hj
  · obtain ⟨record, peer, key, dataType, rfl, ht, hp, hs, hfk, hnext⟩ := hplaced
    exact placed_placeForeignKey hv h ht hp hs hfk hnext

theorem placed_deleteJoin {schema next : Schema} (h : schema.MirrorsPlaced) {join : JoinId}
    (hd : schema.deleteJoin join = .ok next) : next.MirrorsPlaced := by
  obtain ⟨-, rfl⟩ := deleteJoin_eq_ok hd
  exact placed_stripAll h [join]

/-! ## Every edit -/

/-- Relationships change through edits of joins alone: columns that replace those of a table bring
no foreign key that the table has not. -/
def KeepsRelationships (schema : Schema) : Intent → Prop
  | .replaceColumns table columns => schema.KeepsForeignKeys table columns
  | _ => True

/-- **Every edit leaves mirrors in their places.** -/
theorem placed_apply {schema next : Schema} (hv : schema.Valid) (h : schema.MirrorsPlaced)
    {ids : IdSupply} {intent : Intent} {effect : Effect} (hk : schema.KeepsRelationships intent)
    (ha : schema.apply ids intent = .ok (next, effect)) : next.MirrorsPlaced := by
  cases intent with
  | createTable name keyType =>
      obtain ⟨⟨built, id⟩, hb, hr⟩ := bind_eq_ok.mp ha
      cases hr
      obtain ⟨-, rfl⟩ := createTable_eq_ok hb
      exact placed_append h rfl rfl
  | deleteTable table =>
      obtain ⟨built, hb, hr⟩ := bind_eq_ok.mp ha
      cases hr
      exact placed_deleteTable hv h hb
  | duplicateTable table =>
      obtain ⟨⟨built, id⟩, hb, hr⟩ := bind_eq_ok.mp ha
      cases hr
      obtain ⟨-, pattern, name, -, rfl⟩ := duplicateTable_eq_ok hb
      exact placed_append h (owners_copy pattern name ids) rfl
  | replaceColumns table columns =>
      obtain ⟨built, hb, hr⟩ := bind_eq_ok.mp ha
      cases hr
      exact placed_replaceColumns hv h hk hb
  | replaceTableFields table patch =>
      obtain ⟨built, hb, hr⟩ := bind_eq_ok.mp ha
      cases hr
      obtain ⟨-, rfl⟩ := replaceTableFields_eq_ok hb
      exact placed_modifyTable h (fun _ => rfl) (fun _ _ _ => rfl) fun _ => rfl
  | addColumn table name =>
      obtain ⟨⟨built, id⟩, hb, hr⟩ := bind_eq_ok.mp ha
      cases hr
      obtain ⟨-, -, column, -, hnone, -, rfl⟩ := addColumn_eq_ok hb
      refine placed_modifyTable h (fun _ => rfl) (fun t _ _ => ?_) fun _ => rfl
      rw [Table.owners, Table.owners, List.filterMap_append, List.filterMap_cons_none hnone,
        List.filterMap_nil, List.append_nil]
      rfl
  | deleteColumn table column =>
      obtain ⟨built, hb, hr⟩ := bind_eq_ok.mp ha
      cases hr
      exact placed_deleteColumn hv h hb
  | connect source target column onDelete onUpdate =>
      obtain ⟨⟨built, id⟩, hb, hr⟩ := bind_eq_ok.mp ha
      cases hr
      exact placed_connect h hb
  | configureJoin join config =>
      obtain ⟨⟨built, configured⟩, hb, hr⟩ := bind_eq_ok.mp ha
      cases hr
      exact placed_configureJoin hv h hb
  | deleteJoin join =>
      obtain ⟨built, hb, hr⟩ := bind_eq_ok.mp ha
      cases hr
      exact placed_deleteJoin h hb

end Schema

end ErModel
