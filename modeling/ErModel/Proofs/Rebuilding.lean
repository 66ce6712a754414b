import ErModel.Proofs.Seats

/-!
# When what an edit builds is valid

Edits that delete and configure drop the records of some joins and may add records of their own,
with the mirrors these ask for. What they build can be wrong in two ways only: a table is not sound
any more, or an owning record refers to a column that is gone. All else follows from the schema that
was valid before. And stripping joins takes away no columns but those that carry one of them.
-/

namespace ErModel

/-- The edit drops all records of `joins`, and adds owning records and mirrors of new joins. -/
structure Schema.Rebuilt (schema next : Schema) (joins : List JoinId)
    (added reflections : List (TableId × Join)) : Prop where
  ids : (next.tables.map (·.id)).Nodup
  names : (next.tables.map (·.name)).Nodup
  owners : next.owners.Perm (added ++ schema.owners.filter (·.2.id ∉ joins))
  mirrors : next.mirrorRecords.Perm (reflections ++ schema.mirrorRecords.filter (·.2.id ∉ joins))
  seats : ∀ s ∈ next.seats, s ∈ schema.seats ∨ (s.table, s.join) ∈ added
  addedIds : (added.map (·.2.id)).Nodup
  fresh : ∀ o ∈ added, ∀ old ∈ schema.owners, old.2.id ∉ joins → old.2.id ≠ o.2.id
  sources : ∀ o ∈ added, o.2.source = o.1
  fits : ∀ o ∈ added, o.2.fitsForeignKey = true
  mirrorIds : (reflections.map (·.2.id)).Nodup
  mirrored : ∀ m ∈ reflections, ∃ o ∈ added, m.2 = o.2.mirror

namespace Schema

/-- An owning record that sits where one sat before is sound if it has a target. -/
theorem ownerSound_of_seat {schema next : Schema} (hv : schema.Valid) {o : OwnedJoin}
    (hs : o.seat ∈ schema.seats) (ht : next.HasTarget o.join) : next.OwnerSound o := by
  rw [seats_eq] at hs
  obtain ⟨old, hmem, he⟩ := List.mem_map.mp hs
  obtain ⟨hsource, -, hfits⟩ := hv.owners old hmem
  have hholder : old.holder.id = o.holder.id := congrArg Seat.table he
  have hjoin : old.join = o.join := congrArg Seat.join he
  refine ⟨hjoin ▸ hholder ▸ hsource, ht, fun hc => hjoin ▸ hfits ?_⟩
  have hcolumn := congrArg (fun s : Seat => s.column.isSome) he
  simp only [OwnedJoin.seat, Option.isSome_map] at hcolumn
  exact hcolumn.trans hc

/-- An owning record is sound if it is where it was or if it is new, and has a target. -/
theorem Rebuilt.ownerSound {schema next : Schema} {joins : List JoinId}
    {added reflections : List (TableId × Join)} (hv : schema.Valid)
    (h : schema.Rebuilt next joins added reflections) {o : OwnedJoin} (ho : o ∈ next.owningJoins)
    (ht : next.HasTarget o.join) : next.OwnerSound o := by
  have hseat : o.seat ∈ next.seats := seats_eq next ▸ List.mem_map.mpr ⟨o, ho, rfl⟩
  rcases h.seats _ hseat with hold | hnew
  · exact ownerSound_of_seat hv hold ht
  · exact ⟨h.sources _ hnew, ht, fun _ => h.fits _ hnew⟩

section

variable {schema next : Schema} {joins : List JoinId} {added reflections : List (TableId × Join)}

theorem exists_owned {record : TableId × Join} (h : record ∈ schema.owners) :
    ∃ o ∈ schema.owningJoins, (o.holder.id, o.join) = record :=
  List.mem_map.mp (owners_eq schema ▸ h)

/-- A mirror that is left has its owning record still. -/
theorem owner_of_mirror_left (hv : schema.Valid) {m : TableId × Join}
    (hm : m ∈ schema.mirrorRecords.filter (·.2.id ∉ joins)) :
    ∃ old ∈ schema.owners.filter (·.2.id ∉ joins),
      old.2.id = m.2.id ∧ m.2.source = old.2.source ∧ old.2.agreesWith m.2 = true := by
  obtain ⟨hm, hno⟩ := List.mem_filter.mp hm
  rw [mirrorRecords_eq] at hm
  obtain ⟨mirror, hmirror, rfl⟩ := List.mem_map.mp hm
  obtain ⟨join, hjoin, hid, hsource, hagrees⟩ := hv.mirrors mirror hmirror
  obtain ⟨o, ho, rfl⟩ := List.mem_map.mp hjoin
  refine ⟨(o.holder.id, o.join), List.mem_filter.mpr ⟨?_, ?_⟩, hid, hsource, hagrees⟩
  · exact owners_eq schema ▸ List.mem_map.mpr ⟨o, ho, rfl⟩
  · rw [hid]
    exact hno

/-- Every mirror agrees with its owning record: it was left with it, or both are new. -/
theorem Rebuilt.mirrorsOneOf (hv : schema.Valid)
    (h : schema.Rebuilt next joins added reflections) {m : Table × Join}
    (hm : m ∈ next.allMirrors) : m.2.MirrorsOneOf (next.owningJoins.map (·.join)) := by
  have howner : ∀ {record}, record ∈ added ++ schema.owners.filter (·.2.id ∉ joins) →
      record.2 ∈ next.owningJoins.map (·.join) := by
    intro record hr
    obtain ⟨o, ho, he⟩ := exists_owned (h.owners.mem_iff.mpr hr)
    exact List.mem_map.mpr ⟨o, ho, congrArg (·.2) he⟩
  have hmem : (m.1.id, m.2) ∈ next.mirrorRecords :=
    mirrorRecords_eq next ▸ List.mem_map.mpr ⟨m, hm, rfl⟩
  rcases List.mem_append.mp (h.mirrors.mem_iff.mp hmem) with hnew | hold
  · obtain ⟨o, ho, hmirror⟩ := h.mirrored _ hnew
    have hmirror : m.2 = o.2.mirror := hmirror
    rw [hmirror]
    exact ⟨o.2, howner (List.mem_append_left _ ho), rfl, rfl, o.2.agreesWith_mirror⟩
  · obtain ⟨old, hleft, hagrees⟩ := owner_of_mirror_left hv hold
    exact ⟨old.2, howner (List.mem_append_right _ hleft), hagrees⟩

/-- **What an edit builds is valid if its tables are sound and its joins have targets.** -/
theorem Rebuilt.valid_iff (hv : schema.Valid) (h : schema.Rebuilt next joins added reflections) :
    next.Valid ↔ (∀ t ∈ next.tables, t.Sound) ∧ ∀ o ∈ next.owners, next.HasTarget o.2 := by
  have hrecord : ∀ o, o ∈ next.owningJoins → (o.holder.id, o.join) ∈ next.owners := fun o ho =>
    owners_eq next ▸ List.mem_map.mpr ⟨o, ho, rfl⟩
  refine ⟨fun hn => ⟨hn.tables, fun record hr => ?_⟩, fun ⟨htables, htargets⟩ => ?_⟩
  · obtain ⟨o, ho, rfl⟩ := exists_owned hr
    exact (hn.owners o ho).target
  refine ⟨h.ids, h.names, htables, ?_, ?_, ?_, fun m hm => h.mirrorsOneOf hv hm⟩
  · rw [ownerIds_eq, (h.owners.map _).nodup_iff, List.map_append, List.nodup_append]
    refine ⟨h.addedIds, (ownerIds_nodup hv).sublist (List.filter_sublist.map _), ?_⟩
    intro id hid other hother he
    obtain ⟨o, ho, rfl⟩ := List.mem_map.mp hid
    obtain ⟨old, hold, rfl⟩ := List.mem_map.mp hother
    obtain ⟨hold, hleft⟩ := List.mem_filter.mp hold
    exact h.fresh o ho old hold (by simpa using hleft) he.symm
  · exact fun o ho => h.ownerSound hv ho (htargets _ (hrecord o ho))
  · rw [mirrorIds_eq, (h.mirrors.map _).nodup_iff, List.map_append, List.nodup_append]
    refine ⟨h.mirrorIds, ?_, ?_⟩
    · exact (mirrorIds_eq schema ▸ hv.mirrorIds).sublist (List.filter_sublist.map _)
    · -- a new mirror has the id of a new join, and one that is left that of a join that is left
      intro id hid other hother he
      obtain ⟨m, hm, rfl⟩ := List.mem_map.mp hid
      obtain ⟨m', hm', rfl⟩ := List.mem_map.mp hother
      obtain ⟨o, ho, hmirror⟩ := h.mirrored m hm
      obtain ⟨old, hold, hid, -⟩ := owner_of_mirror_left hv hm'
      obtain ⟨hold, hleft⟩ := List.mem_filter.mp hold
      refine h.fresh o ho old hold (by simpa using hleft) ?_
      rw [hid, ← he, hmirror]
      rfl

end

end Schema

/-! ## What stripping leaves -/

/-- The column without the join, if it carries it. -/
def Column.without (column : Column) (join : JoinId) : Column :=
  if column.carries join then { column with foreignKey := none } else column

/-- The column goes when these joins are stripped. A key stays, and is a foreign key no more. -/
def Column.goesWith (column : Column) (joins : List JoinId) : Bool :=
  !column.primaryKey && joins.any (column.carries ·)

@[simp] theorem Column.id_without (column : Column) (join : JoinId) :
    (column.without join).id = column.id := by
  unfold without
  split <;> rfl

@[simp] theorem Column.primaryKey_without (column : Column) (join : JoinId) :
    (column.without join).primaryKey = column.primaryKey := by
  unfold without
  split <;> rfl

theorem Column.carries_without (column : Column) (join : JoinId) :
    (column.without join).carries join = false := by
  unfold without
  split
  · rfl
  · rename_i hcarries
    exact eq_false_of_ne_true hcarries

namespace Table

theorem columns_strip (table : Table) (join : JoinId) : (table.strip join).columns =
    (table.columns.filter fun c => c.primaryKey || !c.carries join).map (·.without join) := rfl

/-- **Stripping leaves a sound table.** -/
theorem Sound.strip {table : Table} (h : table.Sound) (join : JoinId) :
    (table.strip join).Sound where
  columnIds := h.columnIds.sublist (table.columns_strip_sublist join fun _ => rfl)
  home := by
    intro c hc
    obtain ⟨old, hold, rfl⟩ := List.mem_map.mp hc
    have hhome := h.home old (List.mem_filter.mp hold).1
    split <;> exact hhome
  faultless := by
    intro c hc
    obtain ⟨old, hold, rfl⟩ := List.mem_map.mp hc
    have hfaultless := h.faultless old (List.mem_filter.mp hold).1
    split <;> exact hfaultless
  key := by
    have hkeys : (table.strip join).columns.filter (·.primaryKey) =
        (table.columns.filter (·.primaryKey)).map (·.without join) := by
      rw [columns_strip, List.filter_map, List.filter_filter]
      refine congrArg _ (List.filter_congr fun c _ => ?_)
      cases hp : c.primaryKey <;> simp [hp]
    rcases h.key with hnone | ⟨key, hkey, hprimary⟩
    · exact Or.inl (by rw [columns_strip, hnone]; rfl)
    · refine Or.inr ⟨key.without join, by rw [hkeys, hkey]; rfl, ?_⟩
      rw [Column.id_without]
      exact hprimary

/-- The table without any of the joins. -/
def stripAll (table : Table) (joins : List JoinId) : Table := joins.foldl strip table

theorem Sound.stripAll {table : Table} (h : table.Sound) (joins : List JoinId) :
    (table.stripAll joins).Sound := by
  induction joins generalizing table with
  | nil => exact h
  | cons join rest ih => exact ih (h.strip join)

@[simp] theorem id_stripAll (table : Table) (joins : List JoinId) :
    (table.stripAll joins).id = table.id := by
  induction joins generalizing table with
  | nil => rfl
  | cons join rest ih => exact ih (table.strip join)

@[simp] theorem name_stripAll (table : Table) (joins : List JoinId) :
    (table.stripAll joins).name = table.name := by
  induction joins generalizing table with
  | nil => rfl
  | cons join rest ih => exact ih (table.strip join)

/-- A column that is left comes from one with the same id, and is a key if that one was. -/
theorem mem_columns_stripAll {table : Table} {joins : List JoinId} {c : Column}
    (hc : c ∈ (table.stripAll joins).columns) :
    ∃ old ∈ table.columns, old.id = c.id ∧ old.primaryKey = c.primaryKey := by
  induction joins generalizing table with
  | nil => exact ⟨c, hc, rfl, rfl⟩
  | cons join rest ih =>
      obtain ⟨d, hd, hid, hkey⟩ := ih hc
      obtain ⟨old, hold, rfl⟩ := List.mem_map.mp (table.columns_strip join ▸ hd)
      rw [Column.id_without] at hid
      rw [Column.primaryKey_without] at hkey
      exact ⟨old, (List.mem_filter.mp hold).1, hid, hkey⟩

/-- The columns that are left are those that do not go. -/
theorem columnIds_stripAll (table : Table) (joins : List JoinId) :
    (table.stripAll joins).columns.map (·.id) =
      (table.columns.filter fun c => !c.goesWith joins).map (·.id) := by
  induction joins generalizing table with
  | nil =>
      have hall : table.columns.filter (fun c => !c.goesWith []) = table.columns :=
        List.filter_eq_self.mpr fun c _ => by simp [Column.goesWith]
      rw [hall]
      rfl
  | cons join rest ih =>
      have hids : Column.id ∘ (Column.without · join) = Column.id :=
        funext fun c => c.id_without join
      rw [show table.stripAll (join :: rest) = (table.strip join).stripAll rest from rfl, ih,
        columns_strip, List.filter_map, List.map_map, hids, List.filter_filter]
      refine congrArg _ (List.filter_congr fun c _ => ?_)
      cases hp : c.primaryKey with
      | true => simp [Column.goesWith, hp]
      | false =>
          cases hc : c.carries join with
          | true => simp [Column.goesWith, hp, hc]
          | false => simp [Column.goesWith, Column.without, hp, hc]

/-- **A sound table may lose any column but its key.** -/
theorem Sound.withoutColumn {table : Table} (h : table.Sound) {column : ColumnId}
    (hp : ∀ c ∈ table.columns, c.id = column → c.primaryKey = false) :
    Sound { table with columns := table.columns.filter (·.id ≠ column) } where
  columnIds := h.columnIds.sublist (List.filter_sublist.map _)
  home := fun c hc => h.home c (List.mem_filter.mp hc).1
  faultless := fun c hc => h.faultless c (List.mem_filter.mp hc).1
  key := by
    rcases h.key with hnone | ⟨key, hkey, hprimary⟩
    · exact Or.inl (by rw [hnone]; rfl)
    · refine Or.inr ⟨key, ?_, hprimary⟩
      have hkeys : (table.columns.filter (·.id ≠ column)).filter (·.primaryKey) =
          table.columns.filter (·.primaryKey) := by
        rw [List.filter_filter]
        refine List.filter_congr fun c hc => ?_
        by_cases hid : c.id = column
        · simp [hp c hc hid]
        · simp [hid]
      exact hkeys.trans hkey

end Table

namespace Schema

theorem stripAll_eq (schema : Schema) (joins : List JoinId) :
    schema.stripAll joins = schema.mapTables (·.stripAll joins) := by
  unfold stripAll
  induction joins generalizing schema with
  | nil => exact congrArg Schema.mk (List.map_id _).symm
  | cons join rest ih =>
      rw [List.foldl_cons, ih, strip, mapTables, mapTables, mapTables, List.map_map]
      rfl

/-- There is a table, and the column if one is named, to refer to. -/
def Offers (schema : Schema) (target : JoinTarget) : Prop :=
  ∃ t ∈ schema.tables, t.id = target.table ∧
    ∀ column, target.column = some column → column ∈ t.columns.map (·.id)

/-- The column that is referred to goes when the joins are stripped. -/
def Loses (schema : Schema) (joins : List JoinId) (target : JoinTarget) : Prop :=
  ∃ t ∈ schema.tables, t.id = target.table ∧ ∃ c ∈ t.columns, target.column = some c.id ∧
    c.goesWith joins = true

variable {schema next : Schema}

theorem hasTarget_iff (hids : (schema.tables.map (·.id)).Nodup) {join : Join} :
    schema.HasTarget join ↔ ∀ target, join.target = some target → schema.Offers target := by
  have hmem : ∀ (t : Table) (column : ColumnId),
      (t.column? column).isSome = true ↔ column ∈ t.columns.map (·.id) := by
    intro t column
    rw [Table.column?, List.find?_isSome, List.mem_map]
    simp only [decide_eq_true_eq]
  refine forall_congr' fun target => imp_congr_right fun _ => ?_
  constructor
  · rintro ⟨t, ht, hc⟩
    obtain ⟨ht, hid⟩ := mem_of_table? ht
    exact ⟨t, ht, hid, fun column h => (hmem t column).mp (hc column h)⟩
  · rintro ⟨t, ht, hid, hc⟩
    exact ⟨t, hid ▸ table?_of_mem hids ht, fun column h => (hmem t column).mpr (hc column h)⟩

theorem hasTarget_iff_offers (hids : (schema.tables.map (·.id)).Nodup) {join : Join}
    {target : JoinTarget} (ht : join.target = some target) :
    schema.HasTarget join ↔ schema.Offers target := by
  rw [hasTarget_iff hids, ht]
  exact ⟨fun h => h target rfl, fun h other hother => Option.some.inj hother ▸ h⟩

theorem offers_column {t : Table} (ht : t ∈ schema.tables) {c : Column} (hc : c ∈ t.columns) :
    schema.Offers ⟨t.id, some c.id⟩ :=
  ⟨t, ht, rfl, fun _ h => Option.some.inj h ▸ List.mem_map.mpr ⟨c, hc, rfl⟩⟩

/-- **What is offered still is what does not go.** -/
theorem offers_stripAll (hv : schema.Valid) {joins : List JoinId} {target : JoinTarget} :
    (schema.stripAll joins).Offers target ↔ schema.Offers target ∧ ¬ schema.Loses joins target := by
  rw [stripAll_eq]
  constructor
  · rintro ⟨_, hstripped, hid, hc⟩
    obtain ⟨t, ht, rfl⟩ := List.mem_map.mp hstripped
    rw [Table.id_stripAll] at hid
    rw [Table.columnIds_stripAll] at hc
    refine ⟨⟨t, ht, hid, fun column h => ?_⟩, ?_⟩
    · obtain ⟨c, hmem, rfl⟩ := List.mem_map.mp (hc column h)
      exact List.mem_map.mpr ⟨c, (List.mem_filter.mp hmem).1, rfl⟩
    · rintro ⟨u, hu, huid, d, hd, hcolumn, hgoes⟩
      obtain rfl := eq_of_key_eq hv.ids hu ht (huid.trans hid.symm)
      obtain ⟨c, hmem, hcid⟩ := List.mem_map.mp (hc d.id hcolumn)
      obtain ⟨hmem, hstays⟩ := List.mem_filter.mp hmem
      rw [eq_of_key_eq (hv.tables u hu).columnIds hmem hd hcid, hgoes] at hstays
      cases hstays
  · rintro ⟨⟨t, ht, hid, hc⟩, hno⟩
    refine ⟨t.stripAll joins, List.mem_map.mpr ⟨t, ht, rfl⟩, (t.id_stripAll joins).trans hid,
      fun column h => ?_⟩
    obtain ⟨c, hmem, rfl⟩ := List.mem_map.mp (hc column h)
    rw [Table.columnIds_stripAll]
    refine List.mem_map.mpr ⟨c, List.mem_filter.mpr ⟨hmem, ?_⟩, rfl⟩
    cases hgoes : c.goesWith joins with
    | false => rfl
    | true => exact absurd ⟨t, ht, hid, c, hmem, h, hgoes⟩ hno

/-- Every table is left, and all of its columns. -/
def KeptBy (schema next : Schema) : Prop :=
  ∀ t ∈ schema.tables, ∃ u ∈ next.tables, u.id = t.id ∧
    t.columns.map (·.id) ⊆ u.columns.map (·.id)

theorem KeptBy.trans {between : Schema} (h : schema.KeptBy between) (h' : between.KeptBy next) :
    schema.KeptBy next := by
  intro t ht
  obtain ⟨u, hu, hid, hcolumns⟩ := h t ht
  obtain ⟨v, hv, hid', hcolumns'⟩ := h' u hu
  exact ⟨v, hv, hid'.trans hid, List.Subset.trans hcolumns hcolumns'⟩

theorem KeptBy.offers (h : schema.KeptBy next) {target : JoinTarget} (ho : schema.Offers target) :
    next.Offers target := by
  obtain ⟨t, ht, hid, hc⟩ := ho
  obtain ⟨u, hu, hid', hcolumns⟩ := h t ht
  exact ⟨u, hu, hid'.trans hid, fun column h => hcolumns (hc column h)⟩

theorem SameTables.keptBy (h : next.SameTables schema) : schema.KeptBy next := by
  intro t ht
  obtain ⟨u, hu, he⟩ := SameTables.mem (Eq.symm h) ht
  exact ⟨u, hu, Table.id_of_withoutJoins he,
    fun c hc => Table.columns_of_withoutJoins he ▸ hc⟩

theorem keptBy_mapTables {f : Table → Table} (h : ∀ t ∈ schema.tables, (f t).id = t.id ∧
    t.columns.map (·.id) ⊆ (f t).columns.map (·.id)) : schema.KeptBy (schema.mapTables f) :=
  fun t ht => ⟨f t, List.mem_map.mpr ⟨t, ht, rfl⟩, h t ht⟩

theorem keptBy_modifyTable {id : TableId} {f : Table → Table}
    (hids : (schema.tables.map (·.id)).Nodup)
    (h : ∀ t ∈ schema.tables, t.id = id →
      (f t).id = t.id ∧ t.columns.map (·.id) ⊆ (f t).columns.map (·.id)) :
    schema.KeptBy (schema.modifyTable id f) := by
  rw [modifyTable, modifyFirst_eq_map hids]
  refine keptBy_mapTables fun t ht => ?_
  split
  · rename_i hid
    exact h t ht hid
  · exact ⟨rfl, List.Subset.refl _⟩

theorem keptBy_append (schema : Schema) (table : Table) : schema.KeptBy (schema.append table) :=
  fun t ht => ⟨t, List.mem_append_left _ ht, rfl, List.Subset.refl _⟩

theorem offers_of_owner (hv : schema.Valid) {o : OwnedJoin} (ho : o ∈ schema.owningJoins)
    {target : JoinTarget} (ht : o.join.target = some target) : schema.Offers target :=
  (hasTarget_iff hv.ids).mp (hv.owners o ho).target target ht

theorem sound_stripAll (hv : schema.Valid) (joins : List JoinId) :
    ∀ t ∈ (schema.stripAll joins).tables, t.Sound := by
  rw [stripAll_eq]
  intro t ht
  obtain ⟨u, hu, rfl⟩ := List.mem_map.mp ht
  exact (hv.tables u hu).stripAll joins

theorem names_stripAll (schema : Schema) (joins : List JoinId) :
    (schema.stripAll joins).tables.map (·.name) = schema.tables.map (·.name) := by
  rw [stripAll_eq, mapTables, List.map_map]
  exact List.map_congr_left fun t _ => t.name_stripAll joins

/-- What an edit builds is valid if its tables are sound, the joins that it adds have targets, and
no join that it keeps has lost its own. -/
theorem Rebuilt.valid_iff_lost {joins : List JoinId} {added reflections : List (TableId × Join)}
    (hv : schema.Valid) (h : schema.Rebuilt next joins added reflections)
    (lost : JoinTarget → Prop)
    (hoffers : ∀ o ∈ schema.owningJoins, o.join.id ∉ joins → ∀ target,
      o.join.target = some target → (next.Offers target ↔ ¬ lost target)) :
    next.Valid ↔ (∀ t ∈ next.tables, t.Sound) ∧ (∀ o ∈ added, next.HasTarget o.2) ∧
      ¬ ∃ o ∈ schema.owningJoins, o.join.id ∉ joins ∧ ∃ target, o.join.target = some target ∧
        lost target := by
  rw [h.valid_iff hv]
  refine and_congr_right fun _ => ?_
  have hkept : ∀ o ∈ schema.owningJoins, o.join.id ∉ joins →
      (next.HasTarget o.join ↔ ∀ target, o.join.target = some target → ¬ lost target) := by
    intro o ho hno
    rw [hasTarget_iff h.ids]
    exact forall_congr' fun target => forall_congr' fun ht => hoffers o ho hno target ht
  constructor
  · refine fun hall => ⟨fun o ho => hall o (h.owners.mem_iff.mpr (List.mem_append_left _ ho)), ?_⟩
    rintro ⟨o, ho, hno, target, ht, hlost⟩
    refine (hkept o ho hno).mp (hall (o.holder.id, o.join) ?_) target ht hlost
    refine h.owners.mem_iff.mpr (List.mem_append_right _ (List.mem_filter.mpr ⟨?_, ?_⟩))
    · exact owners_eq schema ▸ List.mem_map.mpr ⟨o, ho, rfl⟩
    · simpa using hno
  · rintro ⟨hadded, hnone⟩ record hrecord
    rcases List.mem_append.mp (h.owners.mem_iff.mp hrecord) with hnew | hold
    · exact hadded record hnew
    · obtain ⟨hold, hno⟩ := List.mem_filter.mp hold
      rw [owners_eq] at hold
      obtain ⟨o, ho, rfl⟩ := List.mem_map.mp hold
      have hno : o.join.id ∉ joins := by simpa using hno
      exact (hkept o ho hno).mpr fun target ht hlost => hnone ⟨o, ho, hno, target, ht, hlost⟩

end Schema

end ErModel
