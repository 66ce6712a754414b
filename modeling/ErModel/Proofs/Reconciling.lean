import ErModel.Proofs.Carrying
import ErModel.Proofs.Compiling
import ErModel.Proofs.JoinIds
import ErModel.Proofs.Relabel

/-!
# Reconciling

What reconciling does to a compiled schema is to give it other ids and to put pending joins back.
The new ids tell apart what the old ones did: two tables never get the id of one previous table,
because the names of tables differ on both sides, and no previous id is one that the supply has just
handed out. So the result is valid, and reconciling never fails.
-/

namespace ErModel

/-- The ids that reconciling gives to the parts of a compiled schema. -/
def Schema.newIds (previous parsed : Schema) : Relabelling :=
  let names := Renaming.byName previous parsed
  ⟨names.table, names.column, (JoinIds.settle previous (names.apply parsed)).final⟩

/-! ## Both steps of giving ids as one -/

theorem Renaming.applyTable_eq (names : Renaming) {t : Table}
    (hhome : ∀ c ∈ t.columns, c.tableId = t.id) :
    names.applyTable t = (Relabelling.mk names.table names.column id).onTable t := by
  have hcolumns : t.columns.map (fun column : Column =>
      { column with
        id := names.column column.id
        tableId := names.table t.id
        foreignKey := column.foreignKey.map names.join }) =
      t.columns.map (Relabelling.mk names.table names.column id).onColumn :=
    List.map_congr_left fun c hc => by
      rw [Relabelling.onColumn, hhome c hc]
      rfl
  rw [applyTable, hcolumns]
  rfl

theorem Renaming.apply_eq (names : Renaming) {schema : Schema} (hv : schema.Valid) :
    names.apply schema = (Relabelling.mk names.table names.column id).apply schema := by
  rw [apply, Relabelling.apply, Schema.mapTables, Schema.mapTables]
  exact congrArg _ (List.map_congr_left fun t ht => names.applyTable_eq (hv.tables t ht).home)

theorem JoinIds.apply_eq (ids : JoinIds) (table : TableId → TableId) (column : ColumnId → ColumnId)
    (schema : Schema) :
    ids.apply ((Relabelling.mk table column id).apply schema) =
      (Relabelling.mk table column ids.final).apply schema := by
  rw [apply, Relabelling.apply, Relabelling.apply, Schema.mapTables, Schema.mapTables,
    Schema.mapTables, List.map_map]
  refine congrArg _ (List.map_congr_left fun t _ => ?_)
  simp only [Function.comp_apply, Relabelling.onTable, List.map_map]
  congr 2
  funext c
  simp only [Function.comp_apply, Relabelling.onColumn, Option.map_map]
  rfl

namespace Schema

/-- Reconciling gives new ids and puts pending joins back. -/
theorem reconcile_eq {previous parsed : Schema} (hv : parsed.Valid) (canvas : Canvas)
    (step : Binary64) :
    reconcile previous canvas parsed step =
      ((previous.pendingJoins.foldl carryPending ((newIds previous parsed).apply parsed)).settle
        >>= fun next => pure (next, canvas.arranged next step)) := by
  have happly : (JoinIds.settle previous ((Renaming.byName previous parsed).apply parsed)).apply
      ((Renaming.byName previous parsed).apply parsed) = (newIds previous parsed).apply parsed := by
    rw [(Renaming.byName previous parsed).apply_eq hv, JoinIds.apply_eq, newIds,
      (Renaming.byName previous parsed).apply_eq hv]
  rw [← happly]
  rfl

theorem canvas_reconcile {previous parsed next : Schema} {canvas placed : Canvas} {step : Binary64}
    (hr : reconcile previous canvas parsed step = .ok (next, placed)) :
    placed = canvas.arranged next step := by
  obtain ⟨built, -, hr⟩ := bind_eq_ok.mp hr
  cases hr
  rfl

/-- **Reconciling leaves mirrors in their places.** -/
theorem placed_reconcile {previous parsed next : Schema} {canvas placed : Canvas} {step : Binary64}
    (hv : parsed.Valid) (hp : parsed.MirrorsPlaced)
    (hr : reconcile previous canvas parsed step = .ok (next, placed)) :
    next.Valid ∧ next.MirrorsPlaced := by
  rw [reconcile_eq hv] at hr
  obtain ⟨built, hbuilt, hr⟩ := bind_eq_ok.mp hr
  cases hr
  obtain ⟨hnv, hnext⟩ := settled.mp hbuilt
  refine ⟨hnv, ?_⟩
  -- what is valid has no id twice, so the new ids tell tables apart
  have htells : (newIds previous parsed).TellsTables parsed := by
    have hids := hnv.ids
    rw [hnext, (sameTables_carryAll _ _).ids, Relabelling.apply, mapTables, List.map_map] at hids
    intro t ht u hu he
    rw [eq_of_key_eq hids ht hu he]
  rw [hnext]
  exact placed_carryAll (placed_relabel hv hp htells) _

end Schema

/-! ## Matching by name -/

/-- All columns, each beside its table. -/
def Schema.allColumns (schema : Schema) : List (Table × Column) :=
  schema.collect fun t => t.columns.map fun c => (t, c)

/-- The column of the previous schema that a column is matched with. -/
def Schema.matchedColumn? (previous : Schema) (table : Table) (column : Column) : Option Column :=
  (previous.tableNamed? table.name).bind (·.columnNamed? column.name)

namespace Renaming

variable {previous parsed : Schema}

/-- A table that is matched keeps the previous id, any other its own. -/
theorem table_byName (hids : (parsed.tables.map (·.id)).Nodup) {t : Table}
    (ht : t ∈ parsed.tables) :
    (byName previous parsed).table t.id =
      ((previous.tableNamed? t.name).map (·.id)).getD t.id := by
  have htables : (byName previous parsed).tables = (parsed.tables.filterMap fun t =>
      ((previous.tableNamed? t.name).map (·.id)).map fun id => (t.id, id)).reverse := by
    rw [byName]
    dsimp only
    rw [List.map_filterMap]
    simp only [Option.map_map]
    rfl
  rw [table, htables]
  exact congrArg (·.getD t.id) (lookup_filterMap hids ht)

/-- A column that is matched keeps the previous id, any other its own. -/
theorem column_byName (hids : (parsed.allColumns.map (·.2.id)).Nodup) {t : Table}
    (ht : t ∈ parsed.tables) {c : Column} (hc : c ∈ t.columns) :
    (byName previous parsed).column c.id =
      ((previous.matchedColumn? t c).map (·.id)).getD c.id := by
  have hcolumns : (byName previous parsed).columns = (parsed.allColumns.filterMap fun p =>
      ((previous.matchedColumn? p.1 p.2).map (·.id)).map fun id => (p.2.id, id)).reverse := by
    rw [byName]
    dsimp only
    refine congrArg _ ?_
    rw [Schema.allColumns, Schema.collect]
    generalize parsed.tables = tables
    induction tables with
    | nil => rfl
    | cons t rest ih =>
        rw [List.flatMap_cons, List.filterMap_append, ← ih, List.filterMap_cons,
          List.filterMap_map]
        cases hm : previous.tableNamed? t.name with
        | none =>
            have hnone : t.columns.filterMap ((fun p : Table × Column =>
                ((previous.matchedColumn? p.1 p.2).map (·.id)).map fun id => (p.2.id, id)) ∘
                  fun c => (t, c)) = [] := by
              refine List.filterMap_eq_nil_iff.mpr fun c _ => ?_
              simp [Schema.matchedColumn?, hm]
            rw [hnone]
            rfl
        | some old =>
            rw [Option.map_some, List.flatMap_cons]
            congr 2
            funext c
            rw [Function.comp_apply, Schema.matchedColumn?, hm, Option.map_map]
            rfl
  have hmem : (t, c) ∈ parsed.allColumns :=
    List.mem_flatMap.mpr ⟨t, ht, List.mem_map.mpr ⟨c, hc, rfl⟩⟩
  rw [column, hcolumns]
  exact congrArg (·.getD c.id) (lookup_filterMap hids hmem)

end Renaming

/-! ## Ids that joins had -/

namespace Schema

variable {previous next : Schema}

/-- A join keeps the id that its column carried towards the same table. -/
theorem kept?_eq_some {o : OwnedJoin} {id : JoinId} :
    previous.kept? o = some id ↔ ∃ target column oldTable oldColumn old,
      o.join.peer? = some target ∧ o.column = some column ∧
      previous.table? o.holder.id = some oldTable ∧ oldTable.column? column.id = some oldColumn ∧
      oldColumn.foreignKey = some old ∧ old.peer? = some target ∧ old.id = id := by
  have hkept : ∀ target, previous.keptId? o target = some id ↔
      ∃ column oldTable oldColumn old, o.column = some column ∧
        previous.table? o.holder.id = some oldTable ∧
        oldTable.column? column.id = some oldColumn ∧
        oldColumn.foreignKey = some old ∧ old.peer? = some target ∧ old.id = id := by
    intro target
    unfold keptId?
    simp only [Option.bind_eq_bind, Option.bind_eq_some_iff, Option.ite_none_right_eq_some,
      Option.some.injEq]
    constructor
    · rintro ⟨column, hcolumn, oldTable, htable, oldColumn, hold, old, hf, hpeer, hid⟩
      exact ⟨column, oldTable, oldColumn, old, hcolumn, htable, hold, hf, hpeer, hid⟩
    · rintro ⟨column, oldTable, oldColumn, old, hcolumn, htable, hold, hf, hpeer, hid⟩
      exact ⟨column, hcolumn, oldTable, htable, oldColumn, hold, old, hf, hpeer, hid⟩
  rw [kept?, Option.bind_eq_some_iff]
  constructor
  · rintro ⟨target, ht, hk⟩
    obtain ⟨column, oldTable, oldColumn, old, h⟩ := (hkept target).mp hk
    exact ⟨target, column, oldTable, oldColumn, old, ht, h⟩
  · rintro ⟨target, column, oldTable, oldColumn, old, ht, h⟩
    exact ⟨target, ht, (hkept target).mpr ⟨column, oldTable, oldColumn, old, h⟩⟩

/-- No two joins want the same id: it was carried by one column. -/
theorem wantDifferent (hv : previous.Valid) (hn : next.Valid) :
    JoinIds.WantDifferent previous next.owningJoins := by
  refine List.Pairwise.imp_of_mem (fun {o p} ho hp hne id hko hkp => hne ?_)
    (List.pairwise_map.mp hn.ownerIds)
  obtain ⟨_, column, oldTable, oldColumn, old, -, hcolumn, htable, hold, hf, -, hid⟩ :=
    kept?_eq_some.mp hko
  obtain ⟨_, column', oldTable', oldColumn', old', -, hcolumn', htable', hold', hf', -, hid'⟩ :=
    kept?_eq_some.mp hkp
  obtain ⟨hmem, htid⟩ := mem_of_table? htable
  obtain ⟨hmem', htid'⟩ := mem_of_table? htable'
  have hcid : oldColumn.id = column.id := by simpa using List.find?_some hold
  have hcid' : oldColumn'.id = column'.id := by simpa using List.find?_some hold'
  have hsame := eq_of_key_eq hv.ownerIds
    (mem_owningJoins_of_column hmem (List.mem_of_find?_eq_some hold) hf)
    (mem_owningJoins_of_column hmem' (List.mem_of_find?_eq_some hold') hf') (hid.trans hid'.symm)
  rw [OwnedJoin.mk.injEq, Option.some.injEq] at hsame
  obtain ⟨hst, hsc, -⟩ := hsame
  -- so both sit on the same column of the same table
  obtain ⟨hholder, ⟨c, hc, hoc, hof⟩ | ⟨hnone, -⟩⟩ := mem_owningJoins ho
  · obtain ⟨hholder', ⟨c', hc', hpc, hpf⟩ | ⟨hnone, -⟩⟩ := mem_owningJoins hp
    · have hh : o.holder = p.holder := by
        refine eq_of_key_eq hn.ids hholder hholder' ?_
        rw [← htid, ← htid', hst]
      rw [hcolumn, Option.some.injEq] at hoc
      rw [hcolumn', Option.some.injEq] at hpc
      rw [hh] at hc
      have hcc : c = c' := by
        refine eq_of_key_eq (hn.tables p.holder hholder').columnIds hc hc' ?_
        rw [← hoc, ← hpc, ← hcid, ← hcid', hsc]
      rw [hcc, hpf, Option.some.injEq] at hof
      rw [hof]
    · rw [hcolumn'] at hnone
      cases hnone
  · rw [hcolumn] at hnone
    cases hnone

end Schema

/-! ## The new ids tell apart what the old ones did -/

/-- The ids of tables and columns are none that the previous schema has. -/
structure Schema.FreshFor (parsed previous : Schema) : Prop where
  tables : ∀ t ∈ parsed.tables, ∀ old ∈ previous.tables, t.id ≠ old.id
  columns : ∀ t ∈ parsed.tables, ∀ c ∈ t.columns, ∀ old ∈ previous.tables,
    ∀ d ∈ old.columns, c.id ≠ d.id

/-- What takes its ids from a supply has ids that are new, if those of the supply are. -/
theorem IdSupply.FreshFor.of_drawn {ids : IdSupply} {schema parsed : Schema} {n : Nat}
    (h : ids.FreshFor schema) (hd : parsed.DrawnFrom ids n) : parsed.FreshFor schema := by
  have hfresh : ∀ t ∈ parsed.tables, ∀ text ∈ t.idTexts, ∀ old ∈ schema.tables,
      text ∉ old.idTexts := by
    intro t ht text htext old hold hmem
    obtain ⟨k, -, rfl⟩ := List.mem_map.mp (hd.subset (List.mem_flatMap.mpr ⟨t, ht, htext⟩))
    exact h k (List.mem_flatMap.mpr ⟨old, hold, hmem⟩)
  refine ⟨fun t ht old hold he => ?_, fun t ht c hc old hold d hd he => ?_⟩
  · exact hfresh t ht t.id.text List.mem_cons_self old hold (he ▸ List.mem_cons_self)
  · refine hfresh t ht c.id.text (List.mem_cons_of_mem _ (List.mem_map.mpr ⟨c, hc, rfl⟩)) old hold ?_
    rw [he]
    exact List.mem_cons_of_mem _ (List.mem_map.mpr ⟨d, hd, rfl⟩)

namespace Schema

variable {previous parsed : Schema} {ids : IdSupply} {n : Nat}

theorem DrawnFrom.columnIds_nodup (h : parsed.DrawnFrom ids n) :
    (parsed.allColumns.map (·.2.id)).Nodup := by
  refine nodup_of_map (f := ColumnId.text) (h.nodup.sublist ?_)
  have htable : ∀ t : Table,
      ((t.columns.map fun c => (t, c)).map (·.2.id.text)).Sublist t.idTexts := by
    intro t
    rw [List.map_map]
    exact List.sublist_cons_self _ _
  rw [List.map_map, allColumns, collect, List.map_flatMap]
  exact collect_sublist htable

theorem tableNamed?_eq_some {schema : Schema} {name : String} {t : Table}
    (h : schema.tableNamed? name = some t) : t ∈ schema.tables ∧ t.name = name :=
  ⟨List.mem_of_find?_eq_some h, by simpa using List.find?_some h⟩

theorem matchedColumn?_eq_some {t : Table} {c old : Column}
    (h : previous.matchedColumn? t c = some old) :
    ∃ oldTable, previous.tableNamed? t.name = some oldTable ∧ old ∈ oldTable.columns ∧
      old.name = c.name := by
  obtain ⟨oldTable, htable, hcolumn⟩ := Option.bind_eq_some_iff.mp h
  exact ⟨oldTable, htable, List.mem_of_find?_eq_some hcolumn, by simpa using List.find?_some hcolumn⟩

theorem newIds_table (h : parsed.Compiled ids n) {t : Table} (ht : t ∈ parsed.tables) :
    (newIds previous parsed).table t.id =
      ((previous.tableNamed? t.name).map (·.id)).getD t.id :=
  Renaming.table_byName h.drawn.ids_nodup ht

theorem newIds_column (h : parsed.Compiled ids n) {t : Table} (ht : t ∈ parsed.tables)
    {c : Column} (hc : c ∈ t.columns) :
    (newIds previous parsed).column c.id =
      ((previous.matchedColumn? t c).map (·.id)).getD c.id :=
  Renaming.column_byName h.drawn.columnIds_nodup ht hc

theorem newIds_tells (hv : previous.Valid) (h : parsed.Compiled ids n)
    (hf : parsed.FreshFor previous) : (newIds previous parsed).TellsTables parsed := by
  intro t ht u hu he
  rw [newIds_table h ht, newIds_table h hu] at he
  cases hmt : previous.tableNamed? t.name with
  | none =>
      cases hmu : previous.tableNamed? u.name with
      | none => simpa [hmt, hmu] using he
      | some old =>
          -- an id of the supply is none that the previous schema had
          rw [hmt, hmu] at he
          exact absurd he (hf.tables t ht old (tableNamed?_eq_some hmu).1)
  | some old =>
      obtain ⟨hold, hname⟩ := tableNamed?_eq_some hmt
      cases hmu : previous.tableNamed? u.name with
      | none =>
          rw [hmt, hmu] at he
          exact absurd he.symm (hf.tables u hu old hold)
      | some old' =>
          -- both are the previous table of one name
          obtain ⟨hold', hname'⟩ := tableNamed?_eq_some hmu
          rw [hmt, hmu] at he
          have hsame : old = old' := eq_of_key_eq hv.ids hold hold' he
          have : t = u := eq_of_key_eq h.valid.names ht hu (by rw [← hname, ← hname', hsame])
          rw [this]

theorem newIds_tellsColumns (hv : previous.Valid) (h : parsed.Compiled ids n)
    (hf : parsed.FreshFor previous) {t : Table} (ht : t ∈ parsed.tables) :
    ∀ c ∈ t.columns, ∀ d ∈ t.columns,
      (newIds previous parsed).column c.id = (newIds previous parsed).column d.id → c.id = d.id := by
  intro c hc d hd he
  rw [newIds_column h ht hc, newIds_column h ht hd] at he
  cases hmc : previous.matchedColumn? t c with
  | none =>
      cases hmd : previous.matchedColumn? t d with
      | none => simpa [hmc, hmd] using he
      | some old =>
          obtain ⟨oldTable, htable, hold, -⟩ := matchedColumn?_eq_some hmd
          rw [hmc, hmd] at he
          exact absurd he (hf.columns t ht c hc oldTable (tableNamed?_eq_some htable).1 old hold)
  | some old =>
      obtain ⟨oldTable, htable, hold, hname⟩ := matchedColumn?_eq_some hmc
      obtain ⟨hmem, -⟩ := tableNamed?_eq_some htable
      cases hmd : previous.matchedColumn? t d with
      | none =>
          rw [hmc, hmd] at he
          exact absurd he.symm (hf.columns t ht d hd oldTable hmem old hold)
      | some old' =>
          obtain ⟨oldTable', htable', hold', hname'⟩ := matchedColumn?_eq_some hmd
          -- both are the previous column of one name, in the same table
          rw [htable, Option.some.injEq] at htable'
          rw [← htable'] at hold'
          rw [hmc, hmd] at he
          have hsame : old = old' := eq_of_key_eq (hv.tables oldTable hmem).columnIds hold hold' he
          have : c = d := eq_of_key_eq (h.columnNames t ht) hc hd (by rw [← hname, ← hname', hsame])
          rw [this]

/-- The ids of tables and columns alone are new, and those of joins are what they were. -/
def renamedIds (previous parsed : Schema) : Relabelling :=
  { newIds previous parsed with join := id }

theorem renamedIds_faithful (hv : previous.Valid) (h : parsed.Compiled ids n)
    (hf : parsed.FreshFor previous) : (renamedIds previous parsed).Faithful parsed :=
  ⟨newIds_tells hv h hf, fun _ ht => newIds_tellsColumns hv h hf ht, fun _ _ _ _ he => he⟩

/-- The compiled schema under the ids of tables and columns, with joins as they were. -/
theorem byName_apply (h : parsed.Compiled ids n) :
    (Renaming.byName previous parsed).apply parsed = (renamedIds previous parsed).apply parsed :=
  Renaming.apply_eq _ h.valid

/-- What is known of the final ids of joins. -/
theorem newIds_joins (hv : previous.Valid) (h : parsed.Compiled ids n)
    (hf : parsed.FreshFor previous) :
    JoinIds.Settled previous ((renamedIds previous parsed).apply parsed)
      (JoinIds.settle previous ((renamedIds previous parsed).apply parsed)) := by
  have hfaithful := renamedIds_faithful hv h hf
  have hvalid := valid_relabel h.valid h.placed hfaithful
  have hplaced := placed_relabel h.valid h.placed hfaithful.tables
  -- where mirrors are in their places, every join has a target
  refine JoinIds.settle_spec hvalid.ownerIds (fun o ho => ?_) (wantDifferent hv hvalid)
  rw [Join.peer?, Option.isSome_map]
  exact hplaced.targets (o.holder.id, o.join) (owners_eq _ ▸ List.mem_map.mpr ⟨o, ho, rfl⟩)

theorem newIds_join (h : parsed.Compiled ids n) (id : JoinId) :
    (newIds previous parsed).join id =
      (JoinIds.settle previous ((renamedIds previous parsed).apply parsed)).final id := by
  rw [← byName_apply h]
  rfl

theorem newIds_faithful (hv : previous.Valid) (h : parsed.Compiled ids n)
    (hf : parsed.FreshFor previous) : (newIds previous parsed).Faithful parsed := by
  have hfaithful := renamedIds_faithful hv h hf
  refine ⟨hfaithful.tables, hfaithful.columns, fun o ho p hp he => ?_⟩
  have hrenamed : ∀ o ∈ parsed.owners, ∃ owned ∈
      ((renamedIds previous parsed).apply parsed).owningJoins, owned.join.id = o.2.id := by
    intro o ho
    obtain ⟨owned, howned, rfl⟩ := List.mem_map.mp (owners_eq parsed ▸ ho)
    rw [owningJoins_relabel h.valid hfaithful.tables]
    exact ⟨_, List.mem_map.mpr ⟨owned, howned, rfl⟩, rfl⟩
  obtain ⟨owned, howned, hid⟩ := hrenamed o ho
  obtain ⟨owned', howned', hid'⟩ := hrenamed p hp
  rw [← hid, ← hid'] at he ⊢
  rw [newIds_join h, newIds_join h] at he
  exact (newIds_joins hv h hf).distinct owned howned owned' howned' he

/-- A foreign key on a matched column keeps the id of the one that the column carried towards the
same table. -/
theorem newIds_kept (hv : previous.Valid) (h : parsed.Compiled ids n)
    (hf : parsed.FreshFor previous) {t : Table} (ht : t ∈ parsed.tables) {c old : Column}
    (hc : c ∈ t.columns) {join oldJoin : Join} {target : JoinTarget}
    (hjoin : c.foreignKey = some join) (htarget : join.target = some target)
    (hmatched : previous.matchedColumn? t c = some old) (hold : old.foreignKey = some oldJoin)
    (hpeer : oldJoin.peer? = some ((newIds previous parsed).table target.table)) :
    (newIds previous parsed).join join.id = oldJoin.id := by
  have hfaithful := renamedIds_faithful hv h hf
  have howned := mem_owningJoins_of_column ht hc hjoin
  have hmem : (renamedIds previous parsed).onOwned ⟨t, some c, join⟩ ∈
      ((renamedIds previous parsed).apply parsed).owningJoins := by
    rw [owningJoins_relabel h.valid hfaithful.tables]
    exact List.mem_map.mpr ⟨_, howned, rfl⟩
  refine (newIds_join h _).trans
    ((newIds_joins hv h hf).kept _ hmem oldJoin.id (kept?_eq_some.mpr ?_))
  obtain ⟨oldTable, htable, hcolumn, hname⟩ := matchedColumn?_eq_some hmatched
  obtain ⟨holdTable, -⟩ := tableNamed?_eq_some htable
  refine ⟨_, (renamedIds previous parsed).onColumn c, oldTable, old, oldJoin, ?_, rfl, ?_, ?_, hold,
    hpeer, rfl⟩
  · show (join.target.map _).map _ = _
    rw [htarget]
    rfl
  · have hid : (newIds previous parsed).table t.id = oldTable.id := by
      rw [newIds_table h ht, htable]
      rfl
    show previous.table? ((newIds previous parsed).table t.id) = some oldTable
    rw [hid]
    exact table?_of_mem hv.ids holdTable
  · have hid : (newIds previous parsed).column c.id = old.id := by
      rw [newIds_column h ht hc, hmatched]
      rfl
    show oldTable.column? ((newIds previous parsed).column c.id) = some old
    rw [hid]
    exact find?_key (hv.tables oldTable holdTable).columnIds hcolumn

end Schema

/-! ## Reconciling as a whole -/

namespace Schema

variable {previous parsed : Schema} {ids : IdSupply} {n : Nat}

/-- What reconciling gives for a compiled schema, under which ids. -/
structure Reconciled (previous parsed : Schema) (canvas : Canvas) (step : Binary64)
    (names : Relabelling) (next : Schema) (arranged : Canvas) : Prop where
  result : previous.reconcile canvas parsed step = .ok (next, arranged)
  /-- It is the compiled schema under other ids, and the pending joins that can come back do. -/
  renamed : next = (names.apply parsed).carrying
    (previous.pendingJoins.filterMap (names.apply parsed).carried?)
  /-- A table has the previous id of the table of its name, or its own. -/
  tables : ∀ t ∈ parsed.tables,
    names.table t.id = ((previous.tableNamed? t.name).map (·.id)).getD t.id
  /-- A column has the previous id of the first column of its name in the table of that name, or
  its own. -/
  columns : ∀ t ∈ parsed.tables, ∀ c ∈ t.columns,
    names.column c.id = ((previous.matchedColumn? t c).map (·.id)).getD c.id
  /-- A foreign key has the previous id of the one that its column carried towards its table. -/
  kept : ∀ t ∈ parsed.tables, ∀ c ∈ t.columns, ∀ join target old oldJoin,
    c.foreignKey = some join → join.target = some target →
    previous.matchedColumn? t c = some old → old.foreignKey = some oldJoin →
    oldJoin.peer? = some (names.table target.table) → names.join join.id = oldJoin.id
  distinct : (next.owningJoins.map (·.join.id)).Nodup
  /-- The canvas has the tables of the result and no other. -/
  placed : arranged.places.map (·.1) = next.tables.map (·.id)
  positions : ∀ i t, next.tables[i]? = some t →
    arranged.position? t.id = some ((canvas.position? t.id).getD (.diagonal i step))

theorem places_arranged (canvas : Canvas) (schema : Schema) (step : Binary64) :
    (canvas.arranged schema step).places.map (·.1) = schema.tables.map (·.id) := by
  refine List.ext_getElem? fun i => ?_
  rw [Canvas.arranged, List.getElem?_map, List.getElem?_mapIdx, List.getElem?_map, Option.map_map]
  rfl

theorem position?_arranged {schema : Schema} (hids : (schema.tables.map (·.id)).Nodup)
    (canvas : Canvas) (step : Binary64) {i : Nat} {t : Table} (ht : schema.tables[i]? = some t) :
    (canvas.arranged schema step).position? t.id =
      some ((canvas.position? t.id).getD (.diagonal i step)) := by
  refine lookup_of_mem (places_arranged canvas schema step ▸ hids) ?_
  obtain ⟨hi, ht⟩ := List.getElem?_eq_some_iff.mp ht
  exact List.mem_mapIdx.mpr ⟨i, hi, by rw [ht]; rfl⟩

theorem pendingIds_nodup {schema : Schema} (hv : schema.Valid) :
    (schema.pendingJoins.map (·.id)).Nodup := by
  rw [pendingJoins, List.map_map]
  exact hv.ownerIds.sublist (List.filter_sublist.map _)

/-- What reconciling gives is the compiled schema under the new ids. -/
theorem reconciled (hv : previous.Valid) (h : parsed.Compiled ids n) (hf : parsed.FreshFor previous)
    (canvas : Canvas) (step : Binary64) : ∃ next placed,
      Reconciled previous parsed canvas step (newIds previous parsed) next placed := by
  have hnew := newIds_faithful hv h hf
  have hvalid := valid_relabel h.valid h.placed hnew
  have hcarried := carryAll_eq hvalid.ids (pendingIds_nodup hv)
  have hnext := valid_carryAll hvalid previous.pendingJoins
  generalize hbuilt : previous.pendingJoins.foldl carryPending
    ((newIds previous parsed).apply parsed) = next at hcarried hnext
  have hresult : previous.reconcile canvas parsed step =
      .ok (next, canvas.arranged next step) := by
    rw [reconcile_eq h.valid, hbuilt, settle_of_valid hnext]
    rfl
  exact ⟨next, canvas.arranged next step,
    { result := hresult
      renamed := hcarried
      tables := fun t ht => newIds_table h ht
      columns := fun t ht c hc => newIds_column h ht hc
      kept := fun t ht c hc join target old oldJoin hjoin htarget hmatched hold hpeer =>
        newIds_kept hv h hf ht hc hjoin htarget hmatched hold hpeer
      distinct := hnext.ownerIds
      placed := places_arranged canvas next step
      positions := fun i t ht => position?_arranged hnext.ids canvas step ht }⟩

/-- Where the compiled schema has no pending join, the joins that have been put back are pending, in
some order. -/
theorem pendingJoins_reconciled (hv : previous.Valid) (h : parsed.Compiled ids n)
    (hf : parsed.FreshFor previous) (hpending : parsed.pendingJoins = []) {next : Schema}
    (hnext : next = ((newIds previous parsed).apply parsed).carrying
      (previous.pendingJoins.filterMap ((newIds previous parsed).apply parsed).carried?)) :
    next.pendingJoins.Perm
      (previous.pendingJoins.filterMap ((newIds previous parsed).apply parsed).carried?) := by
  subst hnext
  have htells := newIds_tells hv h hf
  refine pendingJoins_carrying_perm (ids_relabel h.valid.ids htells) (fun u hu => ?_)
    fun join hjoin => ?_
  · obtain ⟨t, ht, rfl⟩ := List.mem_map.mp hu
    rw [pendingJoins_eq, collect, List.flatMap_eq_nil_iff] at hpending
    rw [pendingJoins_relabel h.valid htells ht, hpending t ht]
    rfl
  · obtain ⟨old, -, hback⟩ := List.mem_filterMap.mp hjoin
    obtain ⟨-, -, hsource, hsome, -⟩ := carried?_eq_some hback
    obtain ⟨owner, howner⟩ := Option.isSome_iff_exists.mp hsome
    obtain ⟨hmem, hid⟩ := mem_of_table? howner
    exact List.mem_map.mpr ⟨owner, hmem, hid.trans hsource.symm⟩

/-- **Reconciling never fails, and what it gives is the compiled schema under other ids.** -/
theorem reconcile_renames {previous parsed : Schema} {source : String} {ids rest : IdSupply}
    (hv : previous.validate = .ok ()) (hc : Source.compile source ids = (.ok parsed, rest))
    (hf : parsed.FreshFor previous) (canvas : Canvas) (step : Binary64) :
    ∃ names next placed, Reconciled previous parsed canvas step names next placed := by
  obtain ⟨n, h⟩ := Source.compile_compiled hc
  exact ⟨_, reconciled (validate_iff.mp hv) h hf canvas step⟩

/-- A table of users. -/
def usersTable (users : IdSupply) : Schema :=
  append .empty (Table.seeded (users.tableId 0) (users.columnId 1) "User" .uuid)

/-- A table of users and one of their posts. -/
def usersAndPosts (users posts : IdSupply) : Schema :=
  (usersTable users).append (Table.seeded (posts.tableId 0) (posts.columnId 1) "Post" .uuid)

/-- Two tables, and a pending join from the second to the first. -/
def usersWithPosts : Schema :=
  (usersAndPosts ⟨"a", 0⟩ ⟨"b", 0⟩).declare
    { id := ⟨"b000000000000->a000000000000"⟩
      kind := .oneToOne
      source := ⟨"b000000000000"⟩
      target := some ⟨⟨"a000000000000"⟩, some ⟨"a000000000001"⟩⟩
      onDelete := .cascade
      onUpdate := .restrict
      through := none
      joinColumn := none
      inverseColumn := none }

/-- A text that declares the same two tables. -/
def usersAndPostsSource : String :=
  "entity User \x7b id uuid pk \x7d entity Post \x7b id uuid pk \x7d"

theorem compile_usersAndPostsSource : Source.compile usersAndPostsSource ⟨"d", 0⟩ =
    (.ok (usersAndPosts ⟨"d", 0⟩ ⟨"d", 2⟩), .skip ⟨"d", 0⟩ 12) :=
  Source.compile_of_toOption (by decide +kernel) (by decide +kernel)

/-- The text is compiled and reconciled with a schema that has a pending join as well. -/
theorem usersWithPosts_renamed : usersWithPosts.validate = .ok () ∧
    ∃ names next placed, Reconciled usersWithPosts (usersAndPosts ⟨"d", 0⟩ ⟨"d", 2⟩) .empty
      (.zero false) names next placed := by
  have hvalidate : usersWithPosts.validate = .ok () :=
    ok_of_toOption (by decide +kernel)
  have hfresh : (usersAndPosts ⟨"d", 0⟩ ⟨"d", 2⟩).FreshFor usersWithPosts :=
    ⟨by decide +kernel, by decide +kernel⟩
  exact ⟨hvalidate,
    reconcile_renames hvalidate compile_usersAndPostsSource hfresh .empty (.zero false)⟩

end Schema

end ErModel
