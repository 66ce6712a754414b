import ErModel.Proofs.Nearest
import ErModel.Proofs.Reconciling
import ErModel.Proofs.Relinking

/-!
# A schema in the text editor

A schema that is written as text, compiled and reconciled with itself is what it was. Compiling gives
the same tables and columns under new ids, and a foreign key again for each foreign key; names tell
which is which, so reconciling gives everything its id back, the joins included. The pending joins,
which have no form in the text, find their ids free and their tables there, and all of them come back.
Two things may differ: a stored name that is just the name may be written out or left out, and a whole
number among the default values has only one zero.
-/

namespace ErModel

/-- The column is what it was. Numbers are compared by value, and a stored name that is not given
is the name. -/
structure Column.Restores (column old : Column) : Prop where
  id : column.id = old.id
  tableId : column.tableId = old.tableId
  name : column.name = old.name
  storedName : column.storedName = old.storedName
  dataType : column.dataType = old.dataType
  primaryKey : column.primaryKey = old.primaryKey
  unique : column.unique = old.unique
  index : column.index = old.index
  nullable : column.nullable = old.nullable
  autoIncrement : column.autoIncrement = old.autoIncrement
  defaultValue : Option.Rel (fun a b => a.equal b = true) old.defaultValue column.defaultValue
  description : column.description = old.description
  foreignKey : column.foreignKey = old.foreignKey

/-- The table is what it was. Without columns it has no primary key. -/
structure Table.Restores (table old : Table) : Prop where
  id : table.id = old.id
  name : table.name = old.name
  storedName : table.storedName = old.storedName
  description : table.description = old.description
  primaryKey : old.columns ≠ [] → table.primaryKey = old.primaryKey
  columns : List.Forall₂ (fun c d => d.Restores c) old.columns table.columns

/-- The schema is what it was, pending joins included. -/
structure Schema.Restores (schema old : Schema) : Prop where
  tables : List.Forall₂ (fun t u => u.Restores t) old.tables schema.tables
  pendingJoins : schema.pendingJoins = old.pendingJoins

/-! ## Columns -/

/-- The column that the text describes says the same, but for its ids and its foreign key. -/
theorem restores_reread {old column : Column}
    (hl : ∀ value, old.defaultValue = some value → value.Legible) (id : ColumnId) (table : TableId)
    (h : column = { old.reread id table with
      id := old.id, tableId := old.tableId, foreignKey := old.foreignKey }) :
    column.Restores old := by
  have hstored : ({ old with storageName := old.storedName } : Column).storedName =
      old.storedName := by
    unfold Column.storedName
    by_cases he : old.storageName = ""
    · by_cases hn : old.name = "" <;> simp [he, hn]
    · simp [he]
  rw [h]
  exact
    { id := rfl
      tableId := rfl
      name := rfl
      storedName := hstored
      dataType := rfl
      primaryKey := rfl
      unique := rfl
      index := rfl
      nullable := rfl
      autoIncrement := rfl
      defaultValue := equal_reread hl
      description := rfl
      foreignKey := rfl }

namespace Schema

/-! ## Everything has its id back -/

variable {schema parsed : Schema} {ids : IdSupply} {n : Nat}

/-- What is known of a schema that is compiled from the text of `schema`, under ids that `schema`
does not have. -/
structure Returned (schema parsed : Schema) (ids : IdSupply) (n : Nat) : Prop where
  valid : schema.Valid
  writable : schema.Writable
  compiled : parsed.Compiled ids n
  fresh : parsed.FreshFor schema
  recompiled : parsed.Recompiled schema

namespace Returned

/-- A table has the id of the table of its name. -/
theorem tableId (h : schema.Returned parsed ids n) {t old : Table}
    (ht : t ∈ parsed.tables) (hold : old ∈ schema.tables) (hname : t.name = old.name) :
    (newIds schema parsed).table t.id = old.id := by
  have hfound : schema.tableNamed? t.name = some old := hname ▸ find?_key h.valid.names hold
  rw [newIds_table h.compiled ht, hfound]
  rfl

theorem matched (h : schema.Returned parsed ids n) {t old : Table}
    (hold : old ∈ schema.tables) (hname : t.name = old.name) {d c : Column} (hc : c ∈ old.columns)
    (hcolumn : d.name = c.name) : schema.matchedColumn? t d = some c := by
  have hfound : schema.tableNamed? t.name = some old := hname ▸ find?_key h.valid.names hold
  rw [matchedColumn?, hfound]
  exact hcolumn ▸ find?_key (h.writable.columnNames old hold) hc

/-- A column has the id of the column of its name. -/
theorem columnId (h : schema.Returned parsed ids n) {t old : Table}
    (ht : t ∈ parsed.tables) (hold : old ∈ schema.tables) (hname : t.name = old.name) {d c : Column}
    (hd : d ∈ t.columns) (hc : c ∈ old.columns) (hcolumn : d.name = c.name) :
    (newIds schema parsed).column d.id = c.id := by
  rw [newIds_column h.compiled ht hd, h.matched hold hname hc hcolumn]
  rfl

/-- **A foreign key is the one that its column had.** -/
theorem foreignKey (h : schema.Returned parsed ids n) {t old : Table}
    (ht : t ∈ parsed.tables) (hold : old ∈ schema.tables) (hname : t.name = old.name) {d c : Column}
    (hd : d ∈ t.columns) (hc : c ∈ old.columns) (hcolumn : d.name = c.name) {join oldJoin : Join}
    (hf : d.foreignKey = some join) (hfold : c.foreignKey = some oldJoin)
    (hr : join.Restates oldJoin t.id schema.tables parsed.tables) :
    (newIds schema parsed).record join = oldJoin := by
  obtain ⟨oldPeer, oldKey, peer, key, holdRefers, hrefers, hpeer, hkey⟩ := hr.target
  have htable := h.tableId ht hold hname
  have hpeerId := h.tableId hrefers.table holdRefers.table hpeer
  have hkeyId := h.columnId hrefers.table holdRefers.table hpeer hrefers.column holdRefers.column hkey
  -- the same column carried it towards the same table, so its id is kept
  have hid : (newIds schema parsed).join join.id = oldJoin.id := by
    refine newIds_kept h.valid h.compiled h.fresh ht hd hf hrefers.target
      (h.matched hold hname hc hcolumn) hfold ?_
    rw [Join.peer?, holdRefers.target, hpeerId]
    rfl
  have hsource : oldJoin.source = old.id :=
    (h.valid.owners _ (mem_owningJoins_of_column hold hc hfold)).source
  have hrecord : (newIds schema parsed).record join =
      { oldJoin with
        id := (newIds schema parsed).join join.id
        source := (newIds schema parsed).table t.id
        target := some ⟨(newIds schema parsed).table peer.id,
          some ((newIds schema parsed).column key.id)⟩ } := by
    obtain ⟨hjoin, hinverse⟩ := h.writable.plain old hold c hc oldJoin hfold
    rw [hr.same, Relabelling.record, hrefers.target, hjoin, hinverse]
    rfl
  rw [hrecord, hid, htable, hpeerId, hkeyId, ← hsource, ← holdRefers.target]

theorem restores_column (h : schema.Returned parsed ids n)
    {t old : Table} (ht : t ∈ parsed.tables) (hold : old ∈ schema.tables) (hname : t.name = old.name)
    {d c : Column} (hd : d ∈ t.columns) (hc : c ∈ old.columns)
    (hr : d.Recompiled c t.id schema.tables parsed.tables) :
    ((newIds schema parsed).onColumn d).Restores c := by
  have hcolumn : d.name = c.name := by
    rw [hr.same]
    rfl
  have hkey : d.foreignKey.map (newIds schema parsed).record = c.foreignKey :=
    map_eq_of_rel hr.foreignKey fun _ _ hfold hf hrestates =>
      h.foreignKey ht hold hname hd hc hcolumn hf hfold hrestates
  refine restores_reread (h.writable.legible.defaults old hold c hc) d.id t.id ?_
  have htable : d.tableId = t.id := by
    rw [hr.same]
    rfl
  rw [Relabelling.onColumn, hkey, htable, h.tableId ht hold hname,
    h.columnId ht hold hname hd hc hcolumn, ← (h.valid.tables old hold).home c hc, hr.same]
  rfl

theorem restores_table (h : schema.Returned parsed ids n) {t old : Table} (ht : t ∈ parsed.tables)
    (hold : old ∈ schema.tables) (hr : t.Recompiled old schema.tables parsed.tables) :
    ((newIds schema parsed).onTable t).Restores old := by
  have hcolumns : List.Forall₂ (fun c d => d.Restores c) old.columns
      ((newIds schema parsed).onTable t).columns := by
    refine List.forall₂_map_right_iff.mpr (forall₂_imp_mem hr.columns fun c hc d hd hcd => ?_)
    exact h.restores_column ht hold hr.name hd hc hcd
  refine ⟨h.tableId ht hold hr.name, hr.name, hr.storedName, hr.description, fun hne => ?_, hcolumns⟩
  -- the one key column is where it was
  have hsound := sound_relabel (h.compiled.valid.tables t ht)
    (newIds_tellsColumns h.valid h.compiled h.fresh ht)
  have hkeys := List.rel_filter (p := (·.primaryKey)) (q := (·.primaryKey)) (fun c d hcd => by
    show c.primaryKey = true ↔ d.primaryKey = true
    rw [hcd.primaryKey]) hcolumns
  rcases (h.valid.tables old hold).key with hnil | ⟨key, hkey, hprimary⟩
  · exact absurd hnil hne
  · rcases hsound.key with hnil' | ⟨key', hkey', hprimary'⟩
    · rw [hnil', List.forall₂_nil_right_iff] at hcolumns
      exact absurd hcolumns hne
    · rw [hkey, hkey'] at hkeys
      cases hkeys with
      | cons hcd _ => rw [hprimary, hprimary', hcd.id]

/-- **Under the new ids the tables are what they were.** -/
theorem restores_tables (h : schema.Returned parsed ids n) :
    List.Forall₂ (fun t u => u.Restores t) schema.tables
      ((newIds schema parsed).apply parsed).tables :=
  List.forall₂_map_right_iff.mpr (forall₂_imp_mem h.recompiled.tables fun _ hold _ ht hr =>
    h.restores_table ht hold hr)

/-! ## Pending joins -/

theorem tells (h : schema.Returned parsed ids n) : (newIds schema parsed).TellsTables parsed :=
  newIds_tells h.valid h.compiled h.fresh

/-- The only joins that are there already are the foreign keys. -/
theorem foreignKey_of_owner (h : schema.Returned parsed ids n) {o : TableId × Join}
    (ho : o ∈ ((newIds schema parsed).apply parsed).owners) :
    ∃ t ∈ schema.tables, ∃ c ∈ t.columns, c.foreignKey = some o.2 := by
  obtain ⟨u, hu, -, hj⟩ := mem_owners.mp ho
  rcases List.mem_append.mp hj with hj | hj
  · obtain ⟨d, hd, hf⟩ := mem_foreignKeys.mp hj
    obtain ⟨t, ht, hr⟩ := exists_left h.restores_tables hu
    obtain ⟨c, hc, hcd⟩ := exists_left hr.columns hd
    exact ⟨t, ht, c, hc, hcd.foreignKey ▸ hf⟩
  · obtain ⟨v, hv, rfl⟩ := List.mem_map.mp hu
    rw [pendingJoins_relabel h.compiled.valid h.tells hv, h.recompiled.pending v hv] at hj
    cases hj

theorem table?_isSome (h : schema.Returned parsed ids n) {t : Table} (ht : t ∈ schema.tables) :
    ∃ u, ((newIds schema parsed).apply parsed).table? t.id = some u ∧ u.Restores t := by
  obtain ⟨u, hu, hr⟩ := exists_right h.restores_tables ht
  refine ⟨u, ?_, hr⟩
  rw [← hr.id]
  exact table?_of_mem (ids_relabel h.compiled.valid.ids h.tells) hu

/-- **A pending join comes back as it was.** -/
theorem carried (h : schema.Returned parsed ids n) {join : Join} (hj : join ∈ schema.pendingJoins) :
    ((newIds schema parsed).apply parsed).carried? join = some join := by
  obtain ⟨holder, howned⟩ := mem_pendingJoins.mp hj
  have hsound := h.valid.owners _ howned
  -- a foreign key of that id would have had the id of a pending join before
  have hfree : ((newIds schema parsed).apply parsed).containsJoin join.id = false := by
    rw [Bool.eq_false_iff]
    intro hcontains
    obtain ⟨o, ho, hid⟩ := List.mem_map.mp (containsJoin_iff.mp hcontains)
    obtain ⟨t, ht, c, hc, hf⟩ := h.foreignKey_of_owner ho
    have hsame := eq_of_key_eq h.valid.ownerIds (mem_owningJoins_of_column ht hc hf) howned hid
    cases congrArg OwnedJoin.column hsame
  obtain ⟨target, htarget⟩ := Option.isSome_iff_exists.mp (h.writable.targets _ howned)
  obtain ⟨oldPeer, hfound, hpresent⟩ := hsound.target target htarget
  obtain ⟨holdPeer, hpeerId⟩ := mem_of_table? hfound
  obtain ⟨peer, hpeer, hr⟩ := h.table?_isSome holdPeer
  obtain ⟨source, hsource, -⟩ := h.table?_isSome (mem_owningJoins howned).1
  -- the column that it refers to is among those of the table again
  have hretarget : retarget target peer = target := by
    unfold retarget
    split
    · rename_i column hcolumn
      refine if_pos ?_
      obtain ⟨c, hc, hid⟩ := List.find?_isSome.mp (hpresent column hcolumn)
      obtain ⟨d, hd, hcd⟩ := exists_right hr.columns hc
      exact List.find?_isSome.mpr ⟨d, hd, by rw [hcd.id]; exact hid⟩
    · rfl
  have htarget : join.target = some target := htarget
  have hpeer : ((newIds schema parsed).apply parsed).table? target.table = some peer :=
    hpeerId ▸ hpeer
  have hsome : (((newIds schema parsed).apply parsed).table? join.source).isSome = true := by
    rw [show join.source = holder.id from hsound.source, hsource]
    rfl
  unfold carried?
  rw [if_neg (by rw [hfree]; simp), htarget, Option.bind_some, if_pos hsome, hpeer, Option.map_some,
    hretarget, ← htarget]

end Returned

/-- The pending joins of one source are those of one table. -/
theorem filter_pendingJoins {schema : Schema} (hids : (schema.tables.map (·.id)).Nodup) {t : Table}
    (ht : t ∈ schema.tables) :
    schema.pendingJoins.filter (·.source = t.id) = t.pendingJoins := by
  have hother : ∀ u ∈ schema.tables, u.id ≠ t.id →
      u.pendingJoins.filter (·.source = t.id) = [] := by
    intro u _ hne
    refine List.filter_eq_nil_iff.mpr fun join hj => ?_
    have hs : join.source = u.id := by simpa using (List.mem_filter.mp hj).2
    simpa [hs] using hne
  rw [pendingJoins_eq, filter_collect, collect, flatMap_of_key hids ht hother, Table.pendingJoins,
    List.filter_filter]
  simp

/-- Tables without pending joins of their own get those of the schema. -/
theorem pendingJoins_carrying {base schema : Schema} (hids : (schema.tables.map (·.id)).Nodup)
    (hpending : ∀ u ∈ base.tables, u.pendingJoins = [])
    (htables : List.Forall₂ (fun t u => u.id = t.id) schema.tables base.tables) :
    (base.carrying schema.pendingJoins).pendingJoins = schema.pendingJoins := by
  have hone : ∀ t ∈ schema.tables, ∀ u ∈ base.tables, u.id = t.id →
      ({ u with joins := u.joins ++ schema.pendingJoins.flatMap (·.recordsOn u.id) } :
        Table).pendingJoins = t.pendingJoins := by
    intro t ht u hu hid
    rw [Table.pendingJoins_carrying, hpending u hu, hid, filter_pendingJoins hids ht]
    rfl
  have hmap := map_eq_of_forall₂ (f := Table.pendingJoins) (forall₂_imp_mem htables hone)
    fun _ _ he => he
  rw [pendingJoins_eq, carrying, collect_mapTables, collect, List.flatMap_def, hmap,
    ← List.flatMap_def]
  exact (pendingJoins_eq schema).symm

end Schema

/-! ## There and back -/

namespace Schema

/-- **A schema that goes through its own text is what it was.** -/
theorem text_round_trip {schema : Schema} (hv : schema.validate = .ok ()) (hw : schema.Writable)
    {ids : IdSupply} (hf : ids.FreshFor schema) (canvas : Canvas) (step : Binary64) :
    ∃ parsed rest next placed, Source.compile (Source.textOf schema) ids = (.ok parsed, rest) ∧
      schema.reconcile canvas parsed step = .ok (next, placed) ∧ next.Restores schema := by
  have hvalid := validate_iff.mp hv
  obtain ⟨parsed, rest, hcompile, hrecompiled⟩ := Source.compile_textOf hvalid hw.legible ids
  obtain ⟨n, hcompiled⟩ := Source.compile_compiled hcompile
  have h : schema.Returned parsed ids n :=
    ⟨hvalid, hw, hcompiled, hf.of_drawn hcompiled.drawn, hrecompiled⟩
  obtain ⟨next, placed, hreconciled⟩ := reconciled hvalid hcompiled h.fresh canvas step
  refine ⟨parsed, rest, next, placed, hcompile, hreconciled.result, ?_⟩
  -- all pending joins come back, and none of the others is pending
  have hcarried : schema.pendingJoins.filterMap
      ((newIds schema parsed).apply parsed).carried? = schema.pendingJoins := by
    rw [filterMap_congr_left (g := some) fun join hj => h.carried hj]
    exact List.filterMap_some
  rw [hreconciled.renamed, hcarried]
  refine ⟨?_, pendingJoins_carrying hvalid.ids ?_ ?_⟩
  · refine List.forall₂_map_right_iff.mpr (List.Forall₂.imp (fun t u hr => ?_) h.restores_tables)
    exact ⟨hr.id, hr.name, hr.storedName, hr.description, hr.primaryKey, hr.columns⟩
  · intro u hu
    obtain ⟨t, ht, rfl⟩ := List.mem_map.mp hu
    rw [pendingJoins_relabel hcompiled.valid h.tells ht, hrecompiled.pending t ht]
    rfl
  · exact List.Forall₂.imp (fun t u hr => hr.id) h.restores_tables

/-- Two tables and two joins from the second to the first: one is pending, the other is carried by a
column that has a default value. -/
def usersOfPosts : Schema :=
  usersWithPosts.modifyTable ⟨"b000000000000"⟩ (·.addColumn
    { Column.foreign ⟨"b000000000002"⟩ ⟨"b000000000000"⟩ "userId" .uuid
      { id := ⟨"b000000000000->a000000000000#1"⟩
        kind := .manyToOne
        source := ⟨"b000000000000"⟩
        target := some ⟨⟨"a000000000000"⟩, some ⟨"a000000000001"⟩⟩
        onDelete := .setNull
        onUpdate := .cascade
        through := none
        joinColumn := none
        inverseColumn := none } with
      defaultValue := some (.number (.ofInt 7))
      index := true })

/-- The column keeps its join, and the pending join comes back. -/
theorem usersOfPosts_restored : usersOfPosts.validate = .ok () ∧
    ∃ parsed rest next placed,
      Source.compile (Source.textOf usersOfPosts) ⟨"d", 0⟩ = (.ok parsed, rest) ∧
      usersOfPosts.reconcile .empty parsed (.zero false) = .ok (next, placed) ∧
      next.Restores usersOfPosts := by
  have hvalidate : usersOfPosts.validate = .ok () := ok_of_toOption (by decide +kernel)
  have hwritable : usersOfPosts.Writable := by
    refine ⟨by decide +kernel, by decide +kernel, ?_, ?_⟩
    · show ∀ t ∈ usersOfPosts.tables, ∀ c ∈ t.columns, ∀ join ∈ c.foreignKey,
        join.joinColumn = none ∧ join.inverseColumn = none
      decide +kernel
    · show ∀ t ∈ usersOfPosts.tables, ∀ c ∈ t.columns, ∀ value ∈ c.defaultValue, value.Writable
      decide +kernel
  have hfresh : IdSupply.FreshFor ⟨"d", 0⟩ usersOfPosts := by
    intro k hk
    have hfirst : ∀ text ∈ usersOfPosts.collect Table.idTexts, text.toList.head? ≠ some 'd' := by
      decide +kernel
    refine hfirst _ hk ?_
    rw [IdSupply.text, String.toList_append]
    rfl
  exact ⟨hvalidate, text_round_trip hvalidate hwritable hfresh .empty (.zero false)⟩

end Schema

end ErModel
