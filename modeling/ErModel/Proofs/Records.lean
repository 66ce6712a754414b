import ErModel.Edit.Basic
import ErModel.Edit.Joins
import ErModel.Proofs.Validity

/-!
# The records of joins

Where a record sits, on a column or among the joins of a table, is a matter of storage. What an edit
does to a relationship is seen better on two lists: the owning records of all tables and the mirrors
of all tables, each record beside the id of the table that holds it. Every edit is described here by
what it does to the two lists, some of it up to order.
-/

namespace ErModel

/-- The owning records of a table: those on its columns, and then the pending ones. -/
def Table.owners (table : Table) : List Join :=
  table.columns.filterMap (·.foreignKey) ++ table.pendingJoins

theorem Column.carries_iff {column : Column} {join : JoinId} :
    column.carries join = true ↔ ∃ record, column.foreignKey = some record ∧ record.id = join := by
  simp [carries, Option.any_eq_true]

namespace Schema

/-- What every table contributes to a list. -/
def collect {α : Type} (schema : Schema) (f : Table → List α) : List α := schema.tables.flatMap f

/-- The owning records, each beside the table that holds it. -/
def owners (schema : Schema) : List (TableId × Join) :=
  schema.collect fun t => t.owners.map fun join => (t.id, join)

/-- The mirrors, each beside the table that holds it. -/
def mirrorRecords (schema : Schema) : List (TableId × Join) :=
  schema.collect fun t => t.mirrors.map fun join => (t.id, join)

theorem owners_eq (schema : Schema) :
    schema.owners = schema.owningJoins.map fun o => (o.holder.id, o.join) := by
  rw [owners, collect, owningJoins, List.map_flatMap]
  congr 1
  funext t
  rw [Table.owners, Table.ownedJoins, List.map_append, List.map_append, List.map_filterMap,
    List.map_filterMap, List.map_map]
  congr 1
  congr 1
  funext c
  cases c.foreignKey <;> rfl

theorem mirrorRecords_eq (schema : Schema) :
    schema.mirrorRecords = schema.allMirrors.map fun m => (m.1.id, m.2) := by
  rw [mirrorRecords, collect, allMirrors, List.map_flatMap]
  congr 1
  funext t
  rw [List.map_map]
  rfl

theorem ownerIds_eq (schema : Schema) :
    schema.owningJoins.map (·.join.id) = schema.owners.map (·.2.id) := by
  rw [owners_eq, List.map_map]
  rfl

theorem mirrorIds_eq (schema : Schema) :
    schema.allMirrors.map (·.2.id) = schema.mirrorRecords.map (·.2.id) := by
  rw [mirrorRecords_eq, List.map_map]
  rfl

theorem mem_owners {schema : Schema} {o : TableId × Join} :
    o ∈ schema.owners ↔ ∃ t ∈ schema.tables, t.id = o.1 ∧ o.2 ∈ t.owners := by
  simp only [owners, collect, List.mem_flatMap, List.mem_map]
  constructor
  · rintro ⟨t, ht, join, hj, rfl⟩
    exact ⟨t, ht, rfl, hj⟩
  · rintro ⟨t, ht, hid, hj⟩
    exact ⟨t, ht, o.2, hj, by rw [hid]⟩

theorem mem_mirrorRecords {schema : Schema} {m : TableId × Join} :
    m ∈ schema.mirrorRecords ↔ ∃ t ∈ schema.tables, t.id = m.1 ∧ m.2 ∈ t.mirrors := by
  simp only [mirrorRecords, collect, List.mem_flatMap, List.mem_map]
  constructor
  · rintro ⟨t, ht, join, hj, rfl⟩
    exact ⟨t, ht, rfl, hj⟩
  · rintro ⟨t, ht, hid, hj⟩
    exact ⟨t, ht, m.2, hj, by rw [hid]⟩

theorem mem_owningJoins {schema : Schema} {owned : OwnedJoin} (ho : owned ∈ schema.owningJoins) :
    owned.holder ∈ schema.tables ∧
      ((∃ c ∈ owned.holder.columns, owned.column = some c ∧ c.foreignKey = some owned.join) ∨
        owned.column = none ∧ owned.join ∈ owned.holder.pendingJoins) := by
  obtain ⟨t, ht, hmem⟩ := List.mem_flatMap.mp ho
  rcases List.mem_append.mp hmem with hmem | hmem
  · obtain ⟨c, hc, he⟩ := List.mem_filterMap.mp hmem
    obtain ⟨join, hf, rfl⟩ := Option.map_eq_some_iff.mp he
    exact ⟨ht, Or.inl ⟨c, hc, rfl, hf⟩⟩
  · obtain ⟨join, hj, rfl⟩ := List.mem_map.mp hmem
    exact ⟨ht, Or.inr ⟨rfl, hj⟩⟩

theorem mem_owningJoins_of_column {schema : Schema} {t : Table} (ht : t ∈ schema.tables)
    {c : Column} (hc : c ∈ t.columns) {join : Join} (hf : c.foreignKey = some join) :
    ⟨t, some c, join⟩ ∈ schema.owningJoins :=
  List.mem_flatMap.mpr ⟨t, ht, List.mem_append_left _
    (List.mem_filterMap.mpr ⟨c, hc, by rw [hf]; rfl⟩)⟩

theorem mem_owningJoins_of_pending {schema : Schema} {t : Table} (ht : t ∈ schema.tables)
    {join : Join} (hj : join ∈ t.joins) (hsource : join.source = t.id) :
    ⟨t, none, join⟩ ∈ schema.owningJoins :=
  List.mem_flatMap.mpr ⟨t, ht, List.mem_append_right _
    (List.mem_map.mpr ⟨join, List.mem_filter.mpr ⟨hj, by simpa using hsource⟩, rfl⟩)⟩

/-- A join that a column carries is owned there. -/
theorem owner_of_carries {schema : Schema} (hv : schema.Valid) {t : Table} (ht : t ∈ schema.tables)
    {c : Column} (hc : c ∈ t.columns) {owned : OwnedJoin} (ho : owned ∈ schema.owningJoins)
    (hcarries : c.carries owned.join.id = true) : owned.holder = t ∧ owned.column = some c := by
  obtain ⟨record, hf, hid⟩ := Column.carries_iff.mp hcarries
  obtain rfl := eq_of_key_eq hv.ownerIds (mem_owningJoins_of_column ht hc hf) ho hid
  exact ⟨rfl, rfl⟩

theorem uncarried_of_pending {schema : Schema} (hv : schema.Valid) {owned : OwnedJoin}
    (ho : owned ∈ schema.owningJoins) (hpending : owned.column = none) {t : Table}
    (ht : t ∈ schema.tables) {c : Column} (hc : c ∈ t.columns) :
    c.carries owned.join.id = false := by
  refine eq_false_of_ne_true fun hcarries => ?_
  rw [(owner_of_carries hv ht hc ho hcarries).2] at hpending
  cases hpending

section

variable {schema : Schema} {t : Table} {c : Column} {record : Join}

/-- A join is carried by one column. -/
theorem eq_of_carries (hv : schema.Valid) (ht : t ∈ schema.tables) (hc : c ∈ t.columns)
    (hf : c.foreignKey = some record) {u : Table} {d : Column} (hu : u ∈ schema.tables)
    (hd : d ∈ u.columns) (hcarries : d.carries record.id = true) : u = t ∧ d = c := by
  obtain ⟨htable, hcolumn⟩ :=
    owner_of_carries hv hu hd (mem_owningJoins_of_column ht hc hf) hcarries
  exact ⟨htable.symm, (Option.some.inj hcolumn).symm⟩

theorem find?_carries (hv : schema.Valid) (ht : t ∈ schema.tables) (hc : c ∈ t.columns)
    (hf : c.foreignKey = some record) : t.columns.find? (·.carries record.id) = some c := by
  have hcarries : c.carries record.id = true := Column.carries_iff.mpr ⟨record, hf, rfl⟩
  cases hfound : t.columns.find? (·.carries record.id) with
  | none => exact absurd hcarries (List.find?_eq_none.mp hfound c hc)
  | some d =>
      have hd : d.carries record.id = true :=
        List.find?_some (p := fun d : Column => d.carries record.id) hfound
      rw [(eq_of_carries hv ht hc hf ht (List.mem_of_find?_eq_some hfound) hd).2]

/-- A column is found as the foreign key of the join that it carries. -/
theorem foreignKey?_of_mem (hv : schema.Valid) (ht : t ∈ schema.tables) (hc : c ∈ t.columns)
    (hf : c.foreignKey = some record) : schema.foreignKey? record.id = some (t, c) := by
  refine findSome?_of_only ht (by rw [find?_carries hv ht hc hf]; rfl) fun u hu found hfound => ?_
  obtain ⟨d, hd, rfl⟩ := Option.map_eq_some_iff.mp hfound
  obtain ⟨rfl, rfl⟩ := eq_of_carries hv ht hc hf hu (List.mem_of_find?_eq_some hd)
    (List.find?_some (p := fun d : Column => d.carries record.id) hd)
  rfl

/-- A pending record is found, with the table that holds it. -/
theorem pending?_of_mem (hv : schema.Valid) (ho : ⟨t, none, record⟩ ∈ schema.owningJoins) :
    schema.pending? record.id = some (t, record) := by
  have honly : ∀ u ∈ schema.tables, ∀ j ∈ u.joins, j.id = record.id → j.source = u.id →
      (u, j) = (t, record) := by
    intro u hu j hj hid hsource
    cases eq_of_key_eq hv.ownerIds (mem_owningJoins_of_pending hu hj hsource) ho hid
    rfl
  have hfound : ∀ {u : Table} {j : Join},
      u.joins.find? (fun j => j.id = record.id && j.source = u.id) = some j →
      j ∈ u.joins ∧ j.id = record.id ∧ j.source = u.id := by
    intro u j hj
    have hj' := List.find?_some hj
    simp only [Bool.and_eq_true, decide_eq_true_eq] at hj'
    exact ⟨List.mem_of_find?_eq_some hj, hj'⟩
  obtain ⟨ht, ⟨c, -, hc, -⟩ | ⟨-, hpending⟩⟩ := mem_owningJoins ho
  · cases hc
  obtain ⟨hmem, hsource⟩ := List.mem_filter.mp hpending
  have hsome : (t.joins.find? fun j => j.id = record.id && j.source = t.id).isSome = true :=
    List.find?_isSome.mpr ⟨record, hmem, by simpa using hsource⟩
  obtain ⟨j, hj⟩ := Option.isSome_iff_exists.mp hsome
  obtain ⟨hjoins, hid, hjsource⟩ := hfound hj
  refine findSome?_of_only ht ?_ fun u hu found hmade => ?_
  · show (t.joins.find? fun j => j.id = record.id && j.source = t.id).map _ = _
    rw [hj, Option.map_some, honly t ht j hjoins hid hjsource]
  · obtain ⟨i, hi, rfl⟩ := Option.map_eq_some_iff.mp hmade
    obtain ⟨hijoins, hiid, hisource⟩ := hfound hi
    exact honly u hu i hijoins hiid hisource

end

theorem mem_allMirrors {schema : Schema} {m : Table × Join} :
    m ∈ schema.allMirrors ↔ m.1 ∈ schema.tables ∧ m.2 ∈ m.1.mirrors := by
  simp only [allMirrors, List.mem_flatMap, List.mem_map]
  constructor
  · rintro ⟨t, ht, join, hj, rfl⟩
    exact ⟨ht, hj⟩
  · exact fun ⟨ht, hj⟩ => ⟨m.1, ht, m.2, hj, rfl⟩

theorem mirrors_eq_filter (schema : Schema) (join : JoinId) :
    schema.mirrors join = schema.allMirrors.filter (·.2.id = join) := by
  rw [mirrors, allMirrors, List.filter_flatMap]
  refine congrArg (List.flatMap · _) (funext fun t => ?_)
  rw [Table.mirrors, List.filter_map, List.filter_filter]
  rfl

/-- The source of a mirror is the table that holds the owning record. -/
theorem owner_of_mirror {schema : Schema} (hv : schema.Valid) {m : Table × Join}
    (hm : m ∈ schema.allMirrors) :
    ∃ o ∈ schema.owningJoins, o.join.id = m.2.id ∧ m.2.source = o.holder.id := by
  obtain ⟨_, hjoin, hid, hsource, -⟩ := hv.mirrors m hm
  obtain ⟨o, ho, rfl⟩ := List.mem_map.mp hjoin
  exact ⟨o, ho, hid, hsource.trans (hv.owners o ho).source⟩

/-- Every record among the joins of a table is that of an owner. -/
theorem owner_of_record {schema : Schema} (hv : schema.Valid) {t : Table} (ht : t ∈ schema.tables)
    {join : Join} (hj : join ∈ t.joins) :
    ∃ o ∈ schema.owningJoins, o.join.id = join.id ∧ join.source = o.holder.id := by
  by_cases hs : join.source = t.id
  · exact ⟨_, mem_owningJoins_of_pending ht hj hs, rfl, hs⟩
  · have hm : (t, join) ∈ schema.allMirrors :=
      mem_allMirrors.mpr ⟨ht, List.mem_filter.mpr ⟨hj, by simpa using hs⟩⟩
    exact owner_of_mirror hv hm

theorem containsJoin_iff {schema : Schema} {join : JoinId} :
    schema.containsJoin join = true ↔ join ∈ schema.owners.map (·.2.id) := by
  rw [← ownerIds_eq, containsJoin, List.any_eq_true, List.mem_map]
  simp only [decide_eq_true_eq]

theorem touching_of_owner {schema : Schema} {o : TableId × Join} (ho : o ∈ schema.owners)
    {table : TableId} (hat : o.1 = table ∨ o.2.peer? = some table) :
    o.2.id ∈ schema.joinsTouching table := by
  rw [owners_eq] at ho
  obtain ⟨owned, hmem, rfl⟩ := List.mem_map.mp ho
  rw [joinsTouching, List.mem_eraseDups, List.mem_append]
  exact Or.inl (List.mem_map.mpr ⟨owned, List.mem_filter.mpr ⟨hmem, by simpa using hat⟩, rfl⟩)

theorem touching_of_mirror {schema : Schema} (hn : (schema.tables.map (·.id)).Nodup)
    {m : TableId × Join} (hm : m ∈ schema.mirrorRecords) : m.2.id ∈ schema.joinsTouching m.1 := by
  obtain ⟨t, ht, hid, hj⟩ := mem_mirrorRecords.mp hm
  have hf : schema.table? m.1 = some t := hid ▸ find?_key hn ht
  rw [joinsTouching, List.mem_eraseDups, List.mem_append, hf]
  exact Or.inr (List.mem_map.mpr ⟨m.2, (List.mem_filter.mp hj).1, rfl⟩)

/-- The joins of a table are those with the table at one of their ends, and those with a mirror
there. -/
theorem mem_joinsTouching {schema : Schema} (hn : (schema.tables.map (·.id)).Nodup)
    {table : TableId} {id : JoinId} : id ∈ schema.joinsTouching table ↔
      (∃ o ∈ schema.owners, o.2.id = id ∧ (o.1 = table ∨ o.2.peer? = some table)) ∨
        ∃ m ∈ schema.mirrorRecords, m.1 = table ∧ m.2.id = id := by
  constructor
  · intro h
    rw [joinsTouching, List.mem_eraseDups, List.mem_append] at h
    rcases h with h | h
    · obtain ⟨o, ho, rfl⟩ := List.mem_map.mp h
      obtain ⟨ho, hat⟩ := List.mem_filter.mp ho
      refine Or.inl ⟨(o.holder.id, o.join), ?_, rfl, by simpa using hat⟩
      exact owners_eq schema ▸ List.mem_map.mpr ⟨o, ho, rfl⟩
    · obtain ⟨j, hj, rfl⟩ := List.mem_map.mp h
      cases ht : schema.table? table with
      | none =>
          rw [ht] at hj
          cases hj
      | some t =>
          rw [ht] at hj
          have hmem := List.mem_of_find?_eq_some ht
          have hid : t.id = table := by simpa using List.find?_some ht
          by_cases hs : j.source = t.id
          · -- a pending join is held by the table
            refine Or.inl ⟨(t.id, j), mem_owners.mpr ⟨t, hmem, rfl, ?_⟩, rfl, Or.inl hid⟩
            exact List.mem_append_right _ (List.mem_filter.mpr ⟨hj, by simpa using hs⟩)
          · refine Or.inr ⟨(t.id, j), mem_mirrorRecords.mpr ⟨t, hmem, rfl, ?_⟩, hid, rfl⟩
            exact List.mem_filter.mpr ⟨hj, by simpa using hs⟩
  · rintro (⟨o, ho, rfl, hat⟩ | ⟨m, hm, rfl, rfl⟩)
    · exact touching_of_owner ho hat
    · exact touching_of_mirror hn hm

/-! ## Changing tables -/

/-- A table that is changed contributes something else, and the others what they did. -/
theorem collect_modifyTable {α : Type} {schema : Schema} {id : TableId} {t : Table}
    (ht : schema.table? id = some t) (f : Table → Table) (g : Table → List α) :
    ∃ rest, (schema.collect g).Perm (g t ++ rest) ∧
      ((schema.modifyTable id f).collect g).Perm (g (f t) ++ rest) := by
  obtain ⟨before, behind, hsplit, hmod⟩ := modifyFirst_of_find? (f := f) ht
  refine ⟨before.flatMap g ++ behind.flatMap g, ?_, ?_⟩
  · rw [collect, hsplit, List.flatMap_append, List.flatMap_cons]
    exact List.perm_append_comm_assoc _ _ _
  · rw [collect, modifyTable, hmod, List.flatMap_append, List.flatMap_cons]
    exact List.perm_append_comm_assoc _ _ _

/-- A change that a list does not see. -/
theorem collect_modifyTable_eq {α : Type} {schema : Schema} {id : TableId} {f : Table → Table}
    {g : Table → List α} (h : ∀ t ∈ schema.tables, t.id = id → g (f t) = g t) :
    (schema.modifyTable id f).collect g = schema.collect g := by
  cases ht : schema.table? id with
  | none =>
      have hmod : schema.modifyTable id f = schema := by
        rw [modifyTable, modifyFirst_of_forall]
        intro t hmem
        simpa using List.find?_eq_none.mp ht t hmem
      rw [hmod]
  | some t =>
      obtain ⟨before, behind, hsplit, hmod⟩ := modifyFirst_of_find? (f := f) ht
      have hg : g (f t) = g t :=
        h t (List.mem_of_find?_eq_some ht) (by simpa using List.find?_some ht)
      rw [collect, collect, modifyTable, hmod, hsplit, List.flatMap_append, List.flatMap_append,
        List.flatMap_cons, List.flatMap_cons, hg]

theorem collect_mapTables {α : Type} (schema : Schema) (f : Table → Table) (g : Table → List α) :
    (schema.mapTables f).collect g = schema.collect fun t => g (f t) := by
  rw [collect, mapTables, List.flatMap_map]
  rfl

theorem collect_append {α : Type} (schema : Schema) (table : Table) (g : Table → List α) :
    (schema.append table).collect g = schema.collect g ++ g table := by
  rw [collect, append, List.flatMap_append, List.flatMap_singleton]
  rfl

theorem collect_congr {α : Type} {schema : Schema} {f g : Table → List α}
    (h : ∀ t ∈ schema.tables, f t = g t) : schema.collect f = schema.collect g := by
  have hmap : schema.tables.map f = schema.tables.map g := List.map_congr_left h
  rw [collect, collect, List.flatMap_def, List.flatMap_def, hmap]

/-- Tables that contribute nothing may go. -/
theorem collect_filter {α : Type} {tables : List Table} {p : Table → Bool} {g : Table → List α}
    (h : ∀ t ∈ tables, p t = false → g t = []) :
    collect ⟨tables.filter p⟩ g = collect ⟨tables⟩ g := by
  unfold collect
  induction tables with
  | nil => rfl
  | cons t rest ih =>
      rw [List.forall_mem_cons] at h
      cases hp : p t with
      | true =>
          rw [List.filter_cons_of_pos hp, List.flatMap_cons, List.flatMap_cons]
          exact congrArg _ (ih h.2)
      | false =>
          rw [List.filter_cons_of_neg (by simp [hp]), List.flatMap_cons, h.1 hp, List.nil_append]
          exact ih h.2

theorem filter_collect {α : Type} (schema : Schema) (p : α → Bool) (g : Table → List α) :
    (schema.collect g).filter p = schema.collect fun t => (g t).filter p := List.filter_flatMap

theorem mem_of_table? {schema : Schema} {id : TableId} {t : Table}
    (h : schema.table? id = some t) : t ∈ schema.tables ∧ t.id = id :=
  ⟨List.mem_of_find?_eq_some h, by simpa using List.find?_some h⟩

theorem table?_of_mem {schema : Schema} (hn : (schema.tables.map (·.id)).Nodup) {t : Table}
    (ht : t ∈ schema.tables) : schema.table? t.id = some t := find?_key hn ht

theorem mem_modifyTable {schema : Schema} {id : TableId} {f : Table → Table} {t : Table}
    (ht : schema.table? id = some t) : f t ∈ (schema.modifyTable id f).tables := by
  obtain ⟨before, behind, -, hmod⟩ := modifyFirst_of_find? (f := f) ht
  rw [modifyTable, hmod]
  exact List.mem_append_right _ List.mem_cons_self

theorem mem_of_modifyTable {schema : Schema} {id : TableId} {f : Table → Table} {t : Table}
    (ht : t ∈ (schema.modifyTable id f).tables) :
    t ∈ schema.tables ∨ ∃ u, schema.table? id = some u ∧ t = f u := by
  cases hu : schema.table? id with
  | none =>
      rw [modifyTable, modifyFirst_of_forall] at ht
      · exact Or.inl ht
      · intro u hmem
        simpa using List.find?_eq_none.mp hu u hmem
  | some u =>
      obtain ⟨before, behind, hsplit, hmod⟩ := modifyFirst_of_find? (f := f) hu
      rw [modifyTable, hmod] at ht
      rw [hsplit]
      rcases List.mem_append.mp ht with ht | ht
      · exact Or.inl (List.mem_append_left _ ht)
      · rcases List.mem_cons.mp ht with rfl | ht
        · exact Or.inr ⟨u, rfl, rfl⟩
        · exact Or.inl (List.mem_append_right _ (List.mem_cons_of_mem _ ht))

/-- The other tables are still there. -/
theorem mem_modifyTable_of_ne {schema : Schema} {id : TableId} {f : Table → Table} {t : Table}
    (ht : t ∈ schema.tables) (hne : t.id ≠ id) : t ∈ (schema.modifyTable id f).tables :=
  mem_modifyFirst_of_neg ht (by simpa using hne)

theorem collect_sublist {α : Type} {schema : Schema} {f g : Table → List α}
    (h : ∀ t, (f t).Sublist (g t)) : (schema.collect f).Sublist (schema.collect g) := by
  unfold collect
  induction schema.tables with
  | nil => exact List.Sublist.slnil
  | cons t rest ih =>
      rw [List.flatMap_cons, List.flatMap_cons]
      exact (h t).append ih

/-- A change that leaves a part of what the table contributes. -/
theorem collect_modifyTable_sublist {α : Type} {schema : Schema} {id : TableId}
    {f : Table → Table} {g : Table → List α} (h : ∀ t, (g (f t)).Sublist (g t)) :
    ((schema.modifyTable id f).collect g).Sublist (schema.collect g) := by
  unfold collect modifyTable
  induction schema.tables with
  | nil => exact List.Sublist.slnil
  | cons t rest ih =>
      rw [modifyFirst]
      split
      · rw [List.flatMap_cons, List.flatMap_cons]
        exact (h t).append (List.Sublist.refl _)
      · rw [List.flatMap_cons, List.flatMap_cons]
        exact (List.Sublist.refl _).append ih

theorem ids_modifyTable {schema : Schema} {id : TableId} {f : Table → Table}
    (hf : ∀ t, (f t).id = t.id) :
    (schema.modifyTable id f).tables.map (·.id) = schema.tables.map (·.id) :=
  map_modifyFirst hf _

theorem names_modifyTable {schema : Schema} {id : TableId} {f : Table → Table}
    (hf : ∀ t, (f t).name = t.name) :
    (schema.modifyTable id f).tables.map (·.name) = schema.tables.map (·.name) :=
  map_modifyFirst hf _

theorem table?_modifyTable_isSome {schema : Schema} {id other : TableId} {f : Table → Table}
    (hf : ∀ t, (f t).id = t.id) :
    ((schema.modifyTable id f).table? other).isSome = (schema.table? other).isSome := by
  have h : ∀ s : Schema, (s.table? other).isSome = decide (other ∈ s.tables.map (·.id)) := by
    intro s
    rw [Bool.eq_iff_iff, table?, List.find?_isSome]
    simp
  rw [h, h, ids_modifyTable hf]

end Schema

/-! ## Tables that differ in their joins alone -/

/-- The table without its joins. -/
def Table.withoutJoins (table : Table) : Table := { table with joins := [] }

section

variable {t u : Table}

theorem Table.id_of_withoutJoins (h : t.withoutJoins = u.withoutJoins) : t.id = u.id := by
  have hid := congrArg Table.id h
  exact hid

theorem Table.name_of_withoutJoins (h : t.withoutJoins = u.withoutJoins) : t.name = u.name := by
  have hname := congrArg Table.name h
  exact hname

theorem Table.columns_of_withoutJoins (h : t.withoutJoins = u.withoutJoins) :
    t.columns = u.columns := by
  have hcolumns := congrArg Table.columns h
  exact hcolumns

theorem Table.Sound.of_withoutJoins (hs : t.Sound) (h : t.withoutJoins = u.withoutJoins) :
    u.Sound := by
  have hkey : t.primaryKey = u.primaryKey := by
    have hprimary := congrArg Table.primaryKey h
    exact hprimary
  obtain ⟨columnIds, home, faultless, key⟩ := hs
  rw [columns_of_withoutJoins h] at columnIds home faultless key
  exact ⟨columnIds, fun c hc => (home c hc).trans (id_of_withoutJoins h), faultless, hkey ▸ key⟩

end

namespace Schema

/-- The same tables in the same order, but for their joins. -/
def SameTables (next schema : Schema) : Prop :=
  next.tables.map (·.withoutJoins) = schema.tables.map (·.withoutJoins)

theorem sameTables_addJoin (schema : Schema) (id : TableId) (join : Join) :
    (schema.modifyTable id (·.addJoin join)).SameTables schema :=
  map_modifyFirst (f := fun t : Table => t.addJoin join) (fun _ => rfl) _

namespace SameTables

variable {schema next : Schema}

theorem refl (schema : Schema) : schema.SameTables schema := rfl

theorem trans {other : Schema} (h : next.SameTables schema) (h' : schema.SameTables other) :
    next.SameTables other :=
  Eq.trans h h'

theorem ids (h : next.SameTables schema) :
    next.tables.map (·.id) = schema.tables.map (·.id) := by
  have hids := congrArg (List.map Table.id) h
  rwa [List.map_map, List.map_map] at hids

theorem names (h : next.SameTables schema) :
    next.tables.map (·.name) = schema.tables.map (·.name) := by
  have hnames := congrArg (List.map Table.name) h
  rwa [List.map_map, List.map_map] at hnames

theorem mem (h : next.SameTables schema) {t : Table} (ht : t ∈ next.tables) :
    ∃ u ∈ schema.tables, u.withoutJoins = t.withoutJoins :=
  List.mem_map.mp (h ▸ List.mem_map.mpr ⟨t, ht, rfl⟩)

theorem table? (h : next.SameTables schema) (id : TableId) :
    (next.table? id).map (·.withoutJoins) = (schema.table? id).map (·.withoutJoins) := by
  have hfind : ∀ s : Schema, (s.table? id).map (·.withoutJoins) =
      (s.tables.map (·.withoutJoins)).find? (·.id = id) := by
    intro s
    rw [Schema.table?, List.find?_map]
    rfl
  rw [hfind, hfind, h]

/-- They refer to the same. -/
theorem hasTarget (h : next.SameTables schema) {join : Join} (ht : schema.HasTarget join) :
    next.HasTarget join := by
  intro target htarget
  obtain ⟨peer, hpeer, hcolumn⟩ := ht target htarget
  have hfound := h.table? target.table
  rw [hpeer] at hfound
  obtain ⟨peer', hpeer', he⟩ := Option.map_eq_some_iff.mp hfound
  refine ⟨peer', hpeer', fun column hc => ?_⟩
  rw [Table.column?, Table.columns_of_withoutJoins he]
  exact hcolumn column hc

end SameTables

/-! ## Adding a record -/

theorem owners_addJoin_mirror {schema : Schema} {id : TableId} {mirror : Join}
    (hm : mirror.source ≠ id) :
    (schema.modifyTable id (·.addJoin mirror)).owners = schema.owners := by
  refine collect_modifyTable_eq fun t _ ht => ?_
  have : (t.addJoin mirror).owners = t.owners := by
    simp [Table.owners, Table.addJoin, Table.pendingJoins, ht, hm]
  rw [this]
  rfl

theorem mirrorRecords_addJoin_mirror {schema : Schema} {id : TableId} {mirror : Join} {t : Table}
    (ht : schema.table? id = some t) (hm : mirror.source ≠ id) :
    (schema.modifyTable id (·.addJoin mirror)).mirrorRecords.Perm
      ((id, mirror) :: schema.mirrorRecords) := by
  obtain ⟨rest, hold, hnew⟩ := collect_modifyTable ht (·.addJoin mirror)
    fun t => t.mirrors.map fun join => (t.id, join)
  have hid := (mem_of_table? ht).2
  have hadd : (t.addJoin mirror).mirrors = t.mirrors ++ [mirror] := by
    simp [Table.mirrors, Table.addJoin, hid, hm]
  rw [hadd, List.map_append, List.append_assoc] at hnew
  refine hnew.trans ?_
  refine List.Perm.trans ?_ (hold.symm.cons (id, mirror))
  rw [← hid]
  exact List.perm_middle

theorem owners_addJoin_pending {schema : Schema} {id : TableId} {join : Join} {t : Table}
    (ht : schema.table? id = some t) (hj : join.source = id) :
    (schema.modifyTable id (·.addJoin join)).owners.Perm ((id, join) :: schema.owners) := by
  obtain ⟨rest, hold, hnew⟩ := collect_modifyTable ht (·.addJoin join)
    fun t => t.owners.map fun join => (t.id, join)
  have hid := (mem_of_table? ht).2
  have hadd : (t.addJoin join).owners = t.owners ++ [join] := by
    simp [Table.owners, Table.addJoin, Table.pendingJoins, hid, hj]
  rw [hadd, List.map_append, List.append_assoc] at hnew
  refine hnew.trans ?_
  refine List.Perm.trans ?_ (hold.symm.cons (id, join))
  rw [← hid]
  exact List.perm_middle

theorem mirrorRecords_addJoin_pending {schema : Schema} {id : TableId} {join : Join}
    (hj : join.source = id) :
    (schema.modifyTable id (·.addJoin join)).mirrorRecords = schema.mirrorRecords := by
  refine collect_modifyTable_eq fun t _ ht => ?_
  have : (t.addJoin join).mirrors = t.mirrors := by
    simp [Table.mirrors, Table.addJoin, ht, hj]
  rw [this]
  rfl

end Schema

/-! ## Dropping joins -/

theorem Table.foreignKeys_strip (columns : List Column) (join : JoinId) :
    ((columns.filter fun c => c.primaryKey || !c.carries join).map fun c =>
        if c.carries join then { c with foreignKey := none } else c).filterMap (·.foreignKey) =
      (columns.filterMap (·.foreignKey)).filter (·.id ≠ join) := by
  induction columns with
  | nil => rfl
  | cons c rest ih =>
      cases hf : c.foreignKey with
      | none =>
          have hc : c.carries join = false := by simp [Column.carries, hf]
          rw [List.filter_cons_of_pos (by simp [hc]), List.map_cons, if_neg (by simp [hc]),
            List.filterMap_cons_none hf, List.filterMap_cons_none hf, ih]
      | some record =>
          have hold : (c :: rest).filterMap (·.foreignKey) =
              record :: rest.filterMap (·.foreignKey) := List.filterMap_cons_some hf
          rw [hold]
          by_cases hid : record.id = join
          · -- the record is dropped, whether its column stays or not
            have hc : c.carries join = true := by simp [Column.carries, hf, hid]
            have hdrop : (record :: rest.filterMap (·.foreignKey)).filter (·.id ≠ join) =
                (rest.filterMap (·.foreignKey)).filter (·.id ≠ join) :=
              List.filter_cons_of_neg (by simp [hid])
            rw [hdrop, ← ih]
            by_cases hp : c.primaryKey = true
            · rw [List.filter_cons_of_pos (by simp [hp]), List.map_cons, if_pos hc]
              rfl
            · rw [List.filter_cons_of_neg (by simp [hp, hc])]
          · have hc : c.carries join = false := by simp [Column.carries, hf, hid]
            rw [List.filter_cons_of_pos (by simp [hc]), List.map_cons, if_neg (by simp [hc]),
              List.filter_cons_of_pos (by simpa using hid), ← ih]
            exact List.filterMap_cons_some hf

/-- A column that is left comes from one with the same id, and if it is still a foreign key then it
is that column, and carries another join. -/
theorem Table.mem_columns_strip {table : Table} {join : JoinId} {c : Column}
    (hc : c ∈ (table.strip join).columns) :
    ∃ old ∈ table.columns, old.id = c.id ∧
      (c.foreignKey = none ∨ c = old ∧ old.carries join = false) := by
  obtain ⟨old, hold, rfl⟩ := List.mem_map.mp hc
  refine ⟨old, (List.mem_filter.mp hold).1, ?_⟩
  cases hcarries : old.carries join with
  | true => exact ⟨by simp, Or.inl (by simp)⟩
  | false => exact ⟨by simp, Or.inr ⟨by simp, rfl⟩⟩

theorem Table.columns_strip_sublist {α : Type} (table : Table) (join : JoinId) {f : Column → α}
    (hf : ∀ c : Column, f { c with foreignKey := none } = f c) :
    ((table.strip join).columns.map f).Sublist (table.columns.map f) := by
  have hmap : (table.strip join).columns.map f =
      (table.columns.filter fun c => c.primaryKey || !c.carries join).map f := by
    rw [Table.strip, List.map_map]
    refine List.map_congr_left fun c _ => ?_
    show f (if c.carries join then { c with foreignKey := none } else c) = f c
    split
    · exact hf c
    · rfl
  rw [hmap]
  exact List.filter_sublist.map f

theorem Table.pendingJoins_strip (table : Table) (join : JoinId) :
    (table.strip join).pendingJoins = table.pendingJoins.filter (·.id ≠ join) := by
  rw [Table.pendingJoins, Table.pendingJoins, Table.strip, List.filter_filter, List.filter_filter]
  exact List.filter_congr fun j _ => Bool.and_comm _ _

theorem Table.owners_strip (table : Table) (join : JoinId) :
    (table.strip join).owners = table.owners.filter (·.id ≠ join) := by
  rw [Table.owners, Table.owners, List.filter_append]
  congr 1
  · exact Table.foreignKeys_strip _ _
  · exact Table.pendingJoins_strip _ _

theorem Table.mirrors_strip (table : Table) (join : JoinId) :
    (table.strip join).mirrors = table.mirrors.filter (·.id ≠ join) := by
  rw [Table.mirrors, Table.mirrors, Table.strip, List.filter_filter, List.filter_filter]
  exact List.filter_congr fun j _ => Bool.and_comm _ _

namespace Schema

theorem owners_strip (schema : Schema) (join : JoinId) :
    (schema.strip join).owners = schema.owners.filter (·.2.id ≠ join) := by
  rw [owners, owners, strip, collect_mapTables, filter_collect]
  refine collect_congr fun t _ => ?_
  rw [Table.owners_strip, List.filter_map]
  rfl

theorem mirrorRecords_strip (schema : Schema) (join : JoinId) :
    (schema.strip join).mirrorRecords = schema.mirrorRecords.filter (·.2.id ≠ join) := by
  rw [mirrorRecords, mirrorRecords, strip, collect_mapTables, filter_collect]
  refine collect_congr fun t _ => ?_
  rw [Table.mirrors_strip, List.filter_map]
  rfl

theorem owners_stripAll (schema : Schema) (joins : List JoinId) :
    (schema.stripAll joins).owners = schema.owners.filter (·.2.id ∉ joins) := by
  unfold stripAll
  induction joins generalizing schema with
  | nil => exact (List.filter_eq_self.mpr (by simp)).symm
  | cons join rest ih =>
      rw [List.foldl_cons, ih, owners_strip, List.filter_filter]
      congr 1
      funext o
      simp [Bool.and_comm]

theorem mirrorRecords_stripAll (schema : Schema) (joins : List JoinId) :
    (schema.stripAll joins).mirrorRecords =
      schema.mirrorRecords.filter (·.2.id ∉ joins) := by
  unfold stripAll
  induction joins generalizing schema with
  | nil => exact (List.filter_eq_self.mpr (by simp)).symm
  | cons join rest ih =>
      rw [List.foldl_cons, ih, mirrorRecords_strip, List.filter_filter]
      congr 1
      funext o
      simp [Bool.and_comm]

theorem ids_strip (schema : Schema) (join : JoinId) :
    (schema.strip join).tables.map (·.id) = schema.tables.map (·.id) := by
  rw [strip, mapTables, List.map_map]
  rfl

theorem ids_stripAll (schema : Schema) (joins : List JoinId) :
    (schema.stripAll joins).tables.map (·.id) = schema.tables.map (·.id) := by
  unfold stripAll
  induction joins generalizing schema with
  | nil => rfl
  | cons join rest ih => rw [List.foldl_cons, ih, ids_strip]

theorem table?_strip (schema : Schema) (join : JoinId) (id : TableId) :
    (schema.strip join).table? id = (schema.table? id).map (·.strip join) := by
  rw [table?, strip, mapTables, List.find?_map]
  rfl

end Schema

/-! ## Dropping the records that no column carries -/

/-- The table without the records of a join among its joins. -/
def Table.clear (table : Table) (join : JoinId) : Table :=
  { table with joins := table.joins.filter (·.id ≠ join) }

theorem Table.owners_clear (table : Table) (join : JoinId) :
    (table.clear join).owners.filter (·.id ≠ join) = table.owners.filter (·.id ≠ join) := by
  rw [Table.owners, Table.owners, List.filter_append, List.filter_append]
  refine congrArg _ ?_
  rw [Table.pendingJoins, Table.pendingJoins, Table.clear, List.filter_filter, List.filter_filter,
    List.filter_filter]
  refine List.filter_congr fun j _ => ?_
  cases decide (j.id ≠ join) <;> simp

theorem Table.mirrors_clear (table : Table) (join : JoinId) :
    (table.clear join).mirrors = table.mirrors.filter (·.id ≠ join) := by
  rw [Table.mirrors, Table.mirrors, Table.clear, List.filter_filter, List.filter_filter]
  exact List.filter_congr fun j _ => Bool.and_comm _ _

namespace Schema

/-- The schema without the records of a join among the joins of its tables. -/
def clear (schema : Schema) (join : JoinId) : Schema := schema.mapTables (·.clear join)

theorem owners_clear (schema : Schema) (join : JoinId) :
    (schema.clear join).owners.filter (·.2.id ≠ join) =
      schema.owners.filter (·.2.id ≠ join) := by
  rw [owners, owners, clear, collect_mapTables, filter_collect, filter_collect]
  refine collect_congr fun t _ => ?_
  rw [List.filter_map, List.filter_map]
  exact congrArg _ (t.owners_clear join)

theorem mirrorRecords_clear (schema : Schema) (join : JoinId) :
    (schema.clear join).mirrorRecords = schema.mirrorRecords.filter (·.2.id ≠ join) := by
  rw [mirrorRecords, mirrorRecords, clear, collect_mapTables, filter_collect]
  refine collect_congr fun t _ => ?_
  rw [Table.mirrors_clear, List.filter_map]
  rfl

theorem table?_clear (schema : Schema) (join : JoinId) (id : TableId) :
    (schema.clear join).table? id = (schema.table? id).map (·.clear join) := by
  rw [table?, clear, mapTables, List.find?_map]
  rfl

end Schema

end ErModel
