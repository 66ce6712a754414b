import ErModel.Proofs.Parsing
import ErModel.Proofs.Placement
import ErModel.Source.Compile

/-!
# What compiling gives

The schema that a text describes is valid, has its mirrors in their places, takes all its ids from
the supply, each once, and has no two columns of one name in a table. The tables of a document have
all that before any foreign key is linked, and linking one of them keeps it: the column that gets
the foreign key had none, because the names of the properties differ.
-/

namespace ErModel

/-- The ids of a table and of its columns, as text. -/
def Table.idTexts (table : Table) : List String :=
  table.id.text :: table.columns.map (·.id.text)

/-- The ids of all tables and columns are among the first `n` of the supply, each used once. -/
def Schema.DrawnFrom (schema : Schema) (ids : IdSupply) (n : Nat) : Prop :=
  (schema.collect Table.idTexts).Sublist ((List.range n).map ids.text)

/-- The join has the id of the `n`-th join from its source to its target. -/
def Join.IsNth (join : Join) (n : Nat) : Prop :=
  ∃ target, join.target = some target ∧ join.id = .nth join.source target.table n

theorem Join.IsNth.unique {join : Join} {m n : Nat} (h : join.IsNth m) (h' : join.IsNth n) :
    m = n := by
  obtain ⟨target, htarget, hid⟩ := h
  obtain ⟨target', htarget', hid'⟩ := h'
  obtain rfl := Option.some.inj (htarget.symm.trans htarget')
  exact JoinId.nth_injective _ _ (hid.symm.trans hid')

/-- None of the ids is that of a table or a column. -/
def IdSupply.FreshFor (ids : IdSupply) (schema : Schema) : Prop :=
  ∀ k, ids.text k ∉ schema.collect Table.idTexts

theorem Table.Links.idTexts {junction a b : Table} {ids : IdSupply} {toA toB : Join}
    (h : junction.Links ids a b toA toB) : junction.idTexts = (List.range 4).map ids.text := by
  have hcolumns : junction.columns.map (·.id.text) = [ids.text 1, ids.text 2, ids.text 3] := by
    have := congrArg (List.map ColumnId.text) h.columnIds
    rwa [List.map_map] at this
  rw [Table.idTexts, hcolumns, h.id]
  rfl

theorem Schema.DrawnFrom.nodup {schema : Schema} {ids : IdSupply} {n : Nat}
    (h : schema.DrawnFrom ids n) : (schema.collect Table.idTexts).Nodup :=
  (List.Pairwise.map ids.text (fun _ _ hne he => hne (ids.text_injective he))
    List.nodup_range).sublist h

theorem Schema.DrawnFrom.tableId_lt {schema : Schema} {ids : IdSupply} {n : Nat}
    (h : schema.DrawnFrom ids n) {t : Table} (ht : t ∈ schema.tables) :
    ∃ k < n, t.id = ids.tableId k := by
  have hmem : t.id.text ∈ schema.collect Table.idTexts :=
    List.mem_flatMap.mpr ⟨t, ht, List.mem_cons_self⟩
  obtain ⟨k, hlt, hk⟩ := List.mem_map.mp (h.subset hmem)
  exact ⟨k, List.mem_range.mp hlt, by rw [IdSupply.tableId, hk]⟩

theorem Schema.DrawnFrom.tableId {schema : Schema} {ids : IdSupply} {n : Nat}
    (h : schema.DrawnFrom ids n) {t : Table} (ht : t ∈ schema.tables) :
    ∃ k, t.id = ids.tableId k := by
  obtain ⟨k, -, hk⟩ := h.tableId_lt ht
  exact ⟨k, hk⟩

theorem Schema.DrawnFrom.columnIds {schema : Schema} {ids : IdSupply} {n : Nat}
    (h : schema.DrawnFrom ids n) {t : Table} (ht : t ∈ schema.tables) :
    (t.columns.map (·.id)).Nodup := by
  obtain ⟨before, behind, hsplit⟩ := List.append_of_mem ht
  have htexts : t.idTexts.Sublist (schema.collect Table.idTexts) := by
    rw [collect, hsplit, List.flatMap_append, List.flatMap_cons]
    exact (List.sublist_append_left _ _).trans (List.sublist_append_right _ _)
  refine nodup_of_map (f := ColumnId.text) ?_
  rw [List.map_map]
  exact (List.nodup_cons.mp (h.nodup.sublist htexts)).2

theorem Schema.DrawnFrom.ids_nodup {schema : Schema} {ids : IdSupply} {n : Nat}
    (h : schema.DrawnFrom ids n) : (schema.tables.map (·.id)).Nodup := by
  refine nodup_of_map (f := TableId.text) (h.nodup.sublist ?_)
  rw [List.map_map, collect]
  induction schema.tables with
  | nil => exact List.Sublist.slnil
  | cons t rest ih =>
      rw [List.map_cons, List.flatMap_cons, Table.idTexts, List.cons_append]
      exact (ih.trans (List.sublist_append_right _ _)).cons_cons _

namespace Source

/-! ## Columns and tables -/

theorem Modifier.apply_keeps (modifiers : List Modifier) (column : Column) :
    let said := modifiers.foldl Modifier.apply column
    said.id = column.id ∧ said.tableId = column.tableId ∧ said.name = column.name ∧
      said.foreignKey = column.foreignKey := by
  induction modifiers generalizing column with
  | nil => exact ⟨rfl, rfl, rfl, rfl⟩
  | cons modifier rest ih =>
      have hone : (modifier.apply column).id = column.id ∧
          (modifier.apply column).tableId = column.tableId ∧
          (modifier.apply column).name = column.name ∧
          (modifier.apply column).foreignKey = column.foreignKey := by
        cases modifier <;> exact ⟨rfl, rfl, rfl, rfl⟩
      obtain ⟨hid, htable, hname, hkey⟩ := ih (modifier.apply column)
      exact ⟨hid.trans hone.1, htable.trans hone.2.1, hname.trans hone.2.2.1,
        hkey.trans hone.2.2.2⟩

theorem Property.column_eq_ok {property : Property} {id : ColumnId} {table : TableId}
    {column : Column} (h : property.column id table = .ok column) :
    column.id = id ∧ column.name = property.name ∧ column.foreignKey = none := by
  obtain ⟨dataType, -, h⟩ := bind_eq_ok.mp h
  cases h
  obtain ⟨hid, -, hname, hkey⟩ :=
    Modifier.apply_keeps property.modifiers (.plain id table property.name)
  exact ⟨hid, hname, hkey⟩

/-- Each property gives a column, with the next id of the supply. -/
theorem columnsOf_eq_ok {table : TableId} {ids : IdSupply} {place : Nat}
    {properties : List Property} {columns : List Column}
    (h : columnsOf table ids place properties = .ok columns) :
    columns.map (·.id.text) = (List.range' place properties.length).map ids.text ∧
      columns.map (·.name) = properties.map (·.name) ∧
      ∀ c ∈ columns, c.foreignKey = none := by
  induction properties generalizing place columns with
  | nil =>
      cases h
      exact ⟨rfl, rfl, by simp⟩
  | cons property rest ih =>
      obtain ⟨column, hcolumn, h⟩ := bind_eq_ok.mp h
      obtain ⟨more, hmore, h⟩ := bind_eq_ok.mp h
      cases h
      obtain ⟨hid, hname, hkey⟩ := Property.column_eq_ok hcolumn
      obtain ⟨hids, hnames, hkeys⟩ := ih hmore
      refine ⟨?_, ?_, List.forall_mem_cons.mpr ⟨hkey, hkeys⟩⟩
      · rw [List.map_cons, hids, hid, List.length_cons, List.range'_succ, List.map_cons]
        rfl
      · rw [List.map_cons, List.map_cons, hnames, hname]

/-- What the table of an entity is before foreign keys are linked. -/
theorem Entity.table_eq_ok {entity : Entity} {ids : IdSupply} {table : Table}
    (h : entity.table ids = .ok table) :
    table.idTexts = (List.range entity.idCount).map ids.text ∧
      table.columns.map (·.name) = entity.properties.map (·.name) ∧
      (∀ c ∈ table.columns, c.foreignKey = none) ∧ table.joins = [] := by
  obtain ⟨columns, hcolumns, h⟩ := bind_eq_ok.mp h
  obtain ⟨key, -, h⟩ := bind_eq_ok.mp h
  cases h
  obtain ⟨hids, hnames, hkeys⟩ := columnsOf_eq_ok hcolumns
  refine ⟨?_, hnames, hkeys, rfl⟩
  rw [Table.idTexts, hids, Entity.idCount, List.range_eq_range', Nat.add_comm, List.range'_succ,
    List.map_cons]
  rfl

theorem range_texts (ids : IdSupply) (m n : Nat) :
    (List.range (m + n)).map ids.text =
      (List.range m).map ids.text ++ (List.range n).map (ids.skip m).text := by
  rw [List.range_add, List.map_append, List.map_map]
  refine congrArg _ (List.map_congr_left fun k _ => ?_)
  exact (IdSupply.text_skip ids m k).symm

theorem inEntity_eq_ok {α : Type} {name : String} {x : Except EntityFault α} {a : α}
    (h : inEntity name x = .ok a) : x = .ok a := by
  cases x with
  | ok b =>
      cases h
      rfl
  | error e => cases h

theorem inEntity_ok {α : Type} (name : String) (a : α) : inEntity name (.ok a) = .ok a := rfl

-- Ids are counted as in the definition of `Document.tableIdCount`.
attribute [local instance (1001)] Zero.ofOfNat0

/-- What the tables of a document are before foreign keys are linked. -/
theorem tablesOf_eq_ok {ids : IdSupply} {entities : List Entity} {tables : List Table}
    (h : tablesOf ids entities = .ok tables) :
    tables.flatMap Table.idTexts =
        (List.range (entities.map (·.idCount)).sum).map ids.text ∧
      tables.map (·.columns.map (·.name)) = entities.map (·.properties.map (·.name)) ∧
      ∀ t ∈ tables, (∀ c ∈ t.columns, c.foreignKey = none) ∧ t.joins = [] := by
  induction entities generalizing ids tables with
  | nil =>
      cases h
      exact ⟨rfl, rfl, by simp⟩
  | cons entity rest ih =>
      obtain ⟨table, htable, h⟩ := bind_eq_ok.mp h
      obtain ⟨more, hmore, h⟩ := bind_eq_ok.mp h
      cases h
      obtain ⟨hids, hnames, hkeys, hjoins⟩ := Entity.table_eq_ok (inEntity_eq_ok htable)
      obtain ⟨hmoreIds, hmoreNames, hmoreKeys⟩ := ih hmore
      refine ⟨?_, ?_, List.forall_mem_cons.mpr ⟨⟨hkeys, hjoins⟩, hmoreKeys⟩⟩
      · rw [List.flatMap_cons, hids, hmoreIds, List.map_cons, List.sum_cons, range_texts]
      · rw [List.map_cons, List.map_cons, hnames, hmoreNames]

/-! ## Linking one foreign key -/

/-- The tables of a document that is being linked, as a schema. -/
def Linking.bare (linking : Linking) : Schema := ⟨linking.tables⟩

end Source

/-- The table with a join put in the place of a property. -/
def Table.link (table : Table) (property : String) (join : Join) : Table :=
  if join.kind = .manyToMany then
    { table with
      columns := table.columns.filter (·.name ≠ property)
      joins := table.joins ++ [join] }
  else
    { table with
      columns := modifyFirst (·.name = property)
        (fun c => { c with foreignKey := some join }) table.columns }

/-- The columns of these properties are there, and have no foreign key yet. -/
def Table.Awaits (table : Table) (properties : List Source.Property) : Prop :=
  ∀ p ∈ properties, ∃ c ∈ table.columns, c.name = p.name ∧ c.foreignKey = none

namespace Source

/-- The join that a foreign key declares, from the table `source` to a column of `target`. -/
def Linking.joinOf (linking : Linking) (source : TableId) (target : Table) (column : Column)
    (choice : ReferenceChoice) : Join where
  id := JoinId.nth source target.id (linking.declared.count (source, target.id))
  kind := choice.kind
  source := source
  target := some ⟨target.id, some column.id⟩
  onDelete := choice.onDelete
  onUpdate := choice.onUpdate
  through := choice.through
  joinColumn := choice.joinColumn
  inverseColumn := choice.inverseColumn

/-- The junction table that a many-to-many foreign key waits for. -/
def waitingFor (entity : String) (reference : Reference) (join : JoinId) (target : JoinTarget)
    (choice : ReferenceChoice) : List Deferred :=
  if choice.kind = .manyToMany then
    [{ entity := entity
       join := join
       config :=
        { target := target
          kind := choice.kind
          onDelete := choice.onDelete
          onUpdate := choice.onUpdate
          through := choice.through
          joinColumn := choice.joinColumn
          inverseColumn := some (choice.inverseColumn.getD
            ⟨foreignKeyName reference.target, reference.column⟩) } }]
  else []

/-- The document with one foreign key linked, to a column of `target`. -/
def Linking.linked (linking : Linking) (entity : String) (source : TableId) (property : String)
    (reference : Reference) (target : Table) (column : Column) (choice : ReferenceChoice) : Linking :=
  let join := linking.joinOf source target column choice
  { tables := modifyFirst (·.id = source) (·.link property join) linking.tables
    declared := (source, target.id) :: linking.declared
    mirrors := linking.mirrors ++ (wantedMirror? (source, join)).toList
    deferred := linking.deferred ++
      waitingFor entity reference join.id ⟨target.id, some column.id⟩ choice }

/-- Linking a foreign key is decided by its target, the column referred to and the options. -/
theorem Linking.link_iff {linking next : Linking} {entity property : String} {source : TableId}
    {reference : Reference} : linking.link entity source property reference = .ok next ↔
      ∃ target column choice, linking.target? reference.target = some target ∧
        target.columnNamed? reference.column = some column ∧
        reference.options.foldlM ReferenceChoice.choose {} = .ok choice ∧
        next = linking.linked entity source property reference target column choice := by
  rw [Linking.link]
  cases htarget : linking.target? reference.target with
  | none => simp [throw_ne_ok]
  | some target =>
      cases hcolumn : target.columnNamed? reference.column with
      | none => simp [throw_ne_ok, hcolumn]
      | some column =>
          simp only [Option.some.injEq, exists_and_left, exists_eq_left', hcolumn]
          rw [bind_eq_ok]
          refine exists_congr fun choice => and_congr_right fun _ => ?_
          have hmirrors : (if target.id = source then linking.mirrors else linking.mirrors ++
                [(target.id, (linking.joinOf source target column choice).mirror)]) =
              linking.mirrors ++
                (wantedMirror? (source, linking.joinOf source target column choice)).toList := by
            by_cases he : target.id = source
            · rw [if_pos he, Schema.wantedMirror?_self rfl he]
              exact (List.append_nil _).symm
            · rw [if_neg he, Schema.wantedMirror?_other rfl he]
              rfl
          rw [linked, ← hmirrors, waitingFor]
          by_cases hkind : choice.kind = .manyToMany
          · have hlink : (fun t : Table => t.link property
                (linking.joinOf source target column choice)) = fun t =>
                { t with
                  columns := t.columns.filter (·.name ≠ property)
                  joins := t.joins ++ [linking.joinOf source target column choice] } :=
              funext fun t => if_pos hkind
            rw [if_pos hkind, if_pos hkind, hlink, pure_eq_ok]
            exact eq_comm
          · have hlink : (fun t : Table => t.link property
                (linking.joinOf source target column choice)) = fun t =>
                { t with
                  columns := modifyFirst (·.name = property) (fun c =>
                    { c with foreignKey := some (linking.joinOf source target column choice) })
                    t.columns } :=
              funext fun t => if_neg hkind
            rw [if_neg hkind, if_neg hkind, hlink, List.append_nil, pure_eq_ok]
            exact eq_comm

theorem Linking.link_eq_ok {linking next : Linking} {entity property : String} {source : TableId}
    {reference : Reference} (h : linking.link entity source property reference = .ok next) :
    ∃ (target : Table) (column : Column) (choice : ReferenceChoice),
      linking.target? reference.target = some target ∧
      next.declared = (source, target.id) :: linking.declared ∧
      next.bare = linking.bare.modifyTable source
        (·.link property (linking.joinOf source target column choice)) ∧
      next.mirrors = linking.mirrors ++
        (wantedMirror? (source, linking.joinOf source target column choice)).toList ∧
      ∃ waiting, next.deferred = linking.deferred ++ waiting ∧
        (∀ d ∈ waiting, d.config.kind = .manyToMany ∧ d.config.target.table = target.id) ∧
        waiting.map (·.join) = if choice.kind = .manyToMany then
          [(linking.joinOf source target column choice).id] else [] := by
  obtain ⟨target, column, choice, htarget, -, -, rfl⟩ := link_iff.mp h
  refine ⟨target, column, choice, htarget, rfl, rfl, rfl, _, rfl, fun d hd => ?_, ?_⟩
  · unfold waitingFor at hd
    split at hd
    · rename_i hkind
      rw [List.mem_singleton.mp hd]
      exact ⟨hkind, rfl⟩
    · cases hd
  · unfold waitingFor
    split <;> rfl

/-! ### What linking does to the table -/

end Source

section

variable {table : Table} {property : String} {join : Join}

theorem Table.link_id : (table.link property join).id = table.id := by
  unfold Table.link
  split <;> rfl

theorem Table.columns_link_sublist {α : Type} {f : Column → α}
    (hf : ∀ c, f { c with foreignKey := some join } = f c) :
    ((table.link property join).columns.map f).Sublist (table.columns.map f) := by
  unfold Table.link
  split
  · exact List.filter_sublist.map f
  · exact map_modifyFirst hf table.columns ▸ List.Sublist.refl _

/-- Columns of other names stay what they are. -/
theorem Table.mem_columns_link {c : Column} (hc : c ∈ table.columns) (hne : c.name ≠ property) :
    c ∈ (table.link property join).columns := by
  unfold Table.link
  split
  · exact List.mem_filter.mpr ⟨hc, by simpa using hne⟩
  · exact mem_modifyFirst_of_neg hc (by simpa using hne)

theorem Table.idTexts_link : (table.link property join).idTexts.Sublist table.idTexts := by
  rw [idTexts, idTexts, link_id]
  exact (columns_link_sublist fun _ => rfl).cons_cons _

theorem Table.mirrors_link (hs : join.source = table.id) :
    (table.link property join).mirrors = table.mirrors := by
  rw [mirrors, mirrors, link_id]
  unfold Table.link
  split
  · rw [List.filter_append, List.filter_cons_of_neg (by simpa using hs)]
    exact List.append_nil _
  · rfl

/-- Only a many-to-many join becomes pending. -/
theorem Table.pendingJoins_link (hs : join.source = table.id) :
    (table.link property join).pendingJoins =
      table.pendingJoins ++ if join.kind = .manyToMany then [join] else [] := by
  rw [pendingJoins, pendingJoins, link_id]
  unfold Table.link
  split
  · rw [List.filter_append, List.filter_cons_of_pos (by simpa using hs)]
    rfl
  · exact (List.append_nil _).symm

/-- The property has one column without a foreign key, and the join is the only new record. -/
theorem Table.owners_link (hn : (table.columns.map (·.name)).Nodup) (hs : join.source = table.id)
    {c : Column} (hc : c ∈ table.columns) (hname : c.name = property)
    (hkey : c.foreignKey = none) :
    (table.link property join).owners.Perm (join :: table.owners) := by
  unfold Table.link
  split
  · -- the column goes, and the join is pending
    have hcolumns : (table.columns.filter (·.name ≠ property)).filterMap (·.foreignKey) =
        table.columns.filterMap (·.foreignKey) := by
      refine Schema.foreignKeys_filter fun d hd hp => ?_
      have : d = c := eq_of_key_eq hn hd hc (by rw [hname]; simpa using hp)
      exact this ▸ hkey
    have hpending : (table.joins ++ [join]).filter (·.source = table.id) =
        table.pendingJoins ++ [join] := by
      rw [List.filter_append, List.filter_cons_of_pos (by simpa using hs)]
      rfl
    rw [owners, owners, hcolumns, pendingJoins, hpending, ← List.append_assoc]
    exact List.perm_append_singleton _ _
  · -- the column stays, and carries the join
    obtain ⟨before, behind, hsplit, hmod⟩ := modifyFirst_of_find?
      (f := fun c : Column => { c with foreignKey := some join }) (find?_key hn hc)
    rw [hname] at hmod
    have hold : table.columns.filterMap (·.foreignKey) =
        before.filterMap (·.foreignKey) ++ behind.filterMap (·.foreignKey) := by
      rw [hsplit, List.filterMap_append]
      exact congrArg _ (List.filterMap_cons_none hkey)
    rw [owners, owners, hold, hmod, List.filterMap_append, List.append_assoc, List.append_assoc]
    exact List.perm_middle

end

namespace Source

/-- The ids of the joins declared between these pairs of tables, the last one first. -/
def numbered : List (TableId × TableId) → List JoinId
  | [] => []
  | pair :: rest => JoinId.nth pair.1 pair.2 (rest.count pair) :: numbered rest

/-- Among earlier joins between the same tables an id has a smaller number. -/
theorem numbered_lt {declared : List (TableId × TableId)} {id : JoinId}
    (h : id ∈ numbered declared) :
    ∃ pair ∈ declared, ∃ k < declared.count pair, id = JoinId.nth pair.1 pair.2 k := by
  induction declared with
  | nil => cases h
  | cons first rest ih =>
      rcases List.mem_cons.mp h with rfl | h
      · refine ⟨first, List.mem_cons_self, rest.count first, ?_, rfl⟩
        rw [List.count_cons_self]
        exact Nat.lt_succ_self _
      · obtain ⟨pair, hpair, k, hk, rfl⟩ := ih h
        exact ⟨pair, List.mem_cons_of_mem _ hpair, k,
          Nat.lt_of_lt_of_le hk (List.Sublist.count_le _ (List.sublist_cons_self _ _)), rfl⟩

/-- Joins between tables of one supply have distinct ids. -/
theorem numbered_nodup {ids : IdSupply} {n : Nat} {declared : List (TableId × TableId)}
    (h : ∀ pair ∈ declared, ∃ a < n, ∃ b, pair = (ids.tableId a, ids.tableId b)) :
    (numbered declared).Nodup := by
  induction declared with
  | nil => exact List.nodup_nil
  | cons first rest ih =>
      rw [List.forall_mem_cons] at h
      refine List.nodup_cons.mpr ⟨fun hmem => ?_, ih h.2⟩
      obtain ⟨pair, hpair, k, hk, he⟩ := numbered_lt hmem
      obtain ⟨⟨a, -, b, rfl⟩, hrest⟩ := h
      obtain ⟨a', -, b', rfl⟩ := hrest pair hpair
      obtain ⟨rfl, rfl, rfl⟩ := JoinId.nth_supply_inj he
      exact Nat.lt_irrefl _ hk

/-- What holds of a document that is being linked, whose tables have ids among the first `n` of the
supply. -/
structure Linking.Sound (ids : IdSupply) (n : Nat) (linking : Linking) : Prop where
  drawn : linking.bare.DrawnFrom ids n
  columnNames : ∀ t ∈ linking.tables, (t.columns.map (·.name)).Nodup
  mirrorless : ∀ t ∈ linking.tables, t.mirrors = []
  declared : ∀ pair ∈ linking.declared, ∃ a < n, ∃ b, pair = (ids.tableId a, ids.tableId b)
  joinIds : (linking.bare.owners.map (·.2.id)).Perm (numbered linking.declared)
  /-- The id of a join tells its source, which is the table that declares it, and its target. -/
  sources : ∀ o ∈ linking.bare.owners, o.2.source = o.1 ∧ ∃ k, o.2.IsNth k
  records : MirrorsMatch linking.bare.owners linking.mirrors
  mirrors : ∀ m ∈ linking.mirrors, m.2.source ≠ m.1 ∧ (linking.bare.table? m.1).isSome = true
  deferred : ∀ d ∈ linking.deferred, d.config.kind = .manyToMany
  targets : ∀ d ∈ linking.deferred, d.config.target.table ∈ linking.tables.map (·.id)
  /-- The pending joins are those that wait. -/
  waiting : ((linking.bare.collect Table.pendingJoins).map (·.id)).Perm
    (linking.deferred.map (·.join))

/-- The columns that are still to be linked. -/
def Linking.Awaits (linking : Linking) (source : TableId) (properties : List Property) : Prop :=
  ∃ t ∈ linking.tables, t.id = source ∧ t.Awaits properties

variable {ids : IdSupply} {n : Nat} {linking next : Linking} {entity : String} {source : TableId}

theorem mem_of_link {base : Schema} {table t : Table} {property : String} {join : Join}
    (hfound : base.table? table.id = some table)
    (ht : t ∈ (base.modifyTable table.id (·.link property join)).tables) :
    t ∈ base.tables ∨ t = table.link property join := by
  rcases Schema.mem_of_modifyTable ht with ht | ⟨u, hu, rfl⟩
  · exact Or.inl ht
  · rw [hfound, Option.some.injEq] at hu
    exact Or.inr (by rw [hu])

/-- The join is the only record that comes to the schema. -/
theorem owners_of_link {base : Schema} {table : Table} {property : String} {join : Join}
    (hfound : base.table? table.id = some table) (hn : (table.columns.map (·.name)).Nodup)
    (hs : join.source = table.id) {c : Column} (hc : c ∈ table.columns) (hname : c.name = property)
    (hkey : c.foreignKey = none) :
    (base.modifyTable table.id (·.link property join)).owners.Perm
      ((table.id, join) :: base.owners) := by
  obtain ⟨rest, hold, hnew⟩ := Schema.collect_modifyTable hfound (·.link property join)
    fun t => t.owners.map fun j => (t.id, j)
  refine hnew.trans (List.Perm.trans ?_ (hold.symm.cons _))
  rw [Table.link_id]
  exact ((Table.owners_link hn hs hc hname hkey).map _).append_right rest

/-- Only a many-to-many join comes to those that are pending. -/
theorem pendingJoins_of_link {base : Schema} {table : Table} {property : String} {join : Join}
    (hfound : base.table? table.id = some table) (hs : join.source = table.id) :
    ((base.modifyTable table.id (·.link property join)).collect Table.pendingJoins).Perm
      (base.collect Table.pendingJoins ++ if join.kind = .manyToMany then [join] else []) := by
  obtain ⟨rest, hold, hnew⟩ := Schema.collect_modifyTable hfound (·.link property join)
    Table.pendingJoins
  refine hnew.trans (List.Perm.trans ?_ (hold.symm.append_right _))
  rw [Table.pendingJoins_link hs, List.append_assoc, List.append_assoc]
  exact List.perm_append_comm.append_left _

/-- Linking a foreign key leaves the tables in their places. -/
theorem Linking.ids_link {property : String} {reference : Reference}
    (hl : linking.link entity source property reference = .ok next) :
    next.tables.map (·.id) = linking.tables.map (·.id) := by
  obtain ⟨target, column, choice, -, -, hbare, -, -⟩ := link_eq_ok hl
  rw [show next.tables = next.bare.tables from rfl, hbare,
    Schema.ids_modifyTable fun t => t.link_id]
  rfl

/-- Linking one foreign key keeps all that. -/
theorem Linking.Sound.link (h : linking.Sound ids n) {property : Property} {reference : Reference}
    (hawaits : linking.Awaits source [property])
    (hl : linking.link entity source property.name reference = .ok next) : next.Sound ids n := by
  obtain ⟨target, column, choice, htarget, hdeclared, hbare, hmirrors, waiting, hdeferred, hkinds,
    hwaiting⟩ := link_eq_ok hl
  have htargetMem : target ∈ linking.tables :=
    List.mem_reverse.mp (List.mem_of_find?_eq_some htarget)
  have hid : (linking.joinOf source target column choice).id =
      JoinId.nth source target.id (linking.declared.count (source, target.id)) := rfl
  have hkind : (linking.joinOf source target column choice).kind = choice.kind := rfl
  generalize hjoin : linking.joinOf source target column choice = join
    at hbare hmirrors hid hkind hwaiting
  obtain ⟨table, htable, rfl, htableAwaits⟩ := hawaits
  obtain ⟨c, hc, hname, hkey⟩ := htableAwaits property List.mem_cons_self
  have hjs : join.source = table.id := hjoin ▸ rfl
  have hjt : join.target = some ⟨target.id, some column.id⟩ := hjoin ▸ rfl
  have hfound : linking.bare.table? table.id = some table :=
    Schema.table?_of_mem h.drawn.ids_nodup htable
  have hmem : ∀ t ∈ next.tables, t ∈ linking.tables ∨ t = table.link property.name join :=
    fun t ht => mem_of_link hfound (hbare ▸ (show t ∈ next.bare.tables from ht))
  have hrecords : next.bare.owners.Perm ((table.id, join) :: linking.bare.owners) :=
    hbare ▸ owners_of_link hfound (h.columnNames table htable) hjs hc hname hkey
  refine ⟨?_, ?_, ?_, ?_, ?_, ?_, ?_, ?_, ?_, ?_, ?_⟩
  · rw [hbare]
    exact (Schema.collect_modifyTable_sublist fun t => t.idTexts_link).trans h.drawn
  · intro t ht
    rcases hmem t ht with ht | rfl
    · exact h.columnNames t ht
    · exact (h.columnNames table htable).sublist (Table.columns_link_sublist fun _ => rfl)
  · intro t ht
    rcases hmem t ht with ht | rfl
    · exact h.mirrorless t ht
    · rw [Table.mirrors_link hjs]
      exact h.mirrorless table htable
  · rw [hdeclared, List.forall_mem_cons]
    refine ⟨?_, h.declared⟩
    obtain ⟨a, hlt, ha⟩ := h.drawn.tableId_lt htable
    obtain ⟨b, hb⟩ := h.drawn.tableId htargetMem
    exact ⟨a, hlt, b, by rw [ha, hb]⟩
  · rw [hdeclared, numbered, ← hid]
    exact (hrecords.map _).trans (h.joinIds.cons _)
  · intro o ho
    rcases List.mem_cons.mp (hrecords.subset ho) with rfl | ho
    · exact ⟨hjs, _, _, hjt, by rw [hjs]; exact hid⟩
    · exact h.sources o ho
  · refine (h.records.cons (o := (table.id, join)) (by rw [hjt]; rfl)).perm hrecords ?_
    rw [hmirrors]
    exact List.perm_append_comm
  · intro m hm
    have htable? : ∀ id, (next.bare.table? id).isSome = (linking.bare.table? id).isSome := by
      intro id
      rw [hbare]
      exact Schema.table?_modifyTable_isSome fun _ => Table.link_id
    rw [htable?]
    rw [hmirrors] at hm
    rcases List.mem_append.mp hm with hm | hm
    · exact h.mirrors m hm
    · obtain ⟨hne, rfl⟩ := Schema.wantedMirror?_place hjt (Option.mem_toList.mp hm)
      refine ⟨?_, Schema.table?_isSome_of_mem htargetMem⟩
      rw [Join.mirror_source, hjs]
      exact Ne.symm hne
  · intro d hd
    rw [hdeferred] at hd
    rcases List.mem_append.mp hd with hd | hd
    · exact h.deferred d hd
    · exact (hkinds d hd).1
  · intro d hd
    rw [ids_link hl]
    rw [hdeferred] at hd
    rcases List.mem_append.mp hd with hd | hd
    · exact h.targets d hd
    · rw [(hkinds d hd).2]
      exact List.mem_map.mpr ⟨target, htargetMem, rfl⟩
  · have hpending : (next.bare.collect Table.pendingJoins).Perm
        (linking.bare.collect Table.pendingJoins ++
          if join.kind = .manyToMany then [join] else []) :=
      hbare ▸ pendingJoins_of_link hfound hjs
    have hids : (if join.kind = .manyToMany then [join] else []).map (·.id) =
        waiting.map (·.join) := by
      rw [hwaiting, hkind]
      split <;> rfl
    rw [hdeferred, List.map_append, ← hids]
    exact (hpending.map _).trans (by
      rw [List.map_append]
      exact h.waiting.append_right _)

/-- The other properties of the table are still to be linked, and those of the other tables. -/
theorem Linking.Awaits.link {other : TableId} {property : String} {properties : List Property}
    {reference : Reference} (h : linking.Awaits other properties)
    (hother : other = source → property ∉ properties.map (·.name))
    (hids : (linking.tables.map (·.id)).Nodup)
    (hl : linking.link entity source property reference = .ok next) :
    next.Awaits other properties := by
  obtain ⟨target, column, choice, -, -, hbare, -, -⟩ := link_eq_ok hl
  generalize linking.joinOf source target column choice = join at hbare
  obtain ⟨t, ht, rfl, hawaits⟩ := h
  by_cases he : t.id = source
  · -- the columns of the other properties are not touched
    have hfound : linking.bare.table? source = some t := he ▸ Schema.table?_of_mem hids ht
    refine ⟨t.link property join, ?_, t.link_id, ?_⟩
    · have := Schema.mem_modifyTable (f := (·.link property join)) hfound
      rwa [← hbare] at this
    · intro p hp
      obtain ⟨c, hc, hname, hkey⟩ := hawaits p hp
      have hne : c.name ≠ property := by
        rintro rfl
        exact hother he (List.mem_map.mpr ⟨p, hp, hname.symm⟩)
      exact ⟨c, Table.mem_columns_link hc hne, hname, hkey⟩
  · refine ⟨t, ?_, rfl, hawaits⟩
    have : t ∈ (linking.bare.modifyTable source (·.link property join)).tables :=
      Schema.mem_modifyTable_of_ne ht he
    rwa [← hbare] at this

/-! ## Linking all foreign keys -/

theorem Linking.Sound.linkAll (h : linking.Sound ids n) {properties : List Property}
    (hnames : (properties.map (·.name)).Nodup) (hawaits : linking.Awaits source properties)
    (hl : linkAll entity source linking properties = .ok next) : next.Sound ids n := by
  induction properties generalizing linking with
  | nil =>
      cases hl
      exact h
  | cons property rest ih =>
      rw [List.map_cons, List.nodup_cons] at hnames
      obtain ⟨t, ht, hid, htAwaits⟩ := hawaits
      have hrest : linking.Awaits source rest :=
        ⟨t, ht, hid, fun p hp => htAwaits p (List.mem_cons_of_mem _ hp)⟩
      rw [Linking.linkAll] at hl
      split at hl
      · exact ih h hnames.2 hrest hl
      · obtain ⟨middle, hmiddle, hl⟩ := bind_eq_ok.mp hl
        have hone : linking.Awaits source [property] := by
          refine ⟨t, ht, hid, fun p hp => htAwaits p ?_⟩
          rw [List.mem_singleton.mp hp]
          exact List.mem_cons_self
        exact ih (h.link hone hmiddle) hnames.2
          (hrest.link (fun _ => hnames.1) h.drawn.ids_nodup hmiddle) hl

/-- What another table awaits is not touched. -/
theorem Linking.Awaits.linkAll {other : TableId} {awaited properties : List Property}
    (h : linking.Awaits other awaited) (hne : other ≠ source)
    (hids : (linking.tables.map (·.id)).Nodup)
    (hl : linkAll entity source linking properties = .ok next) : next.Awaits other awaited := by
  induction properties generalizing linking with
  | nil =>
      cases hl
      exact h
  | cons property rest ih =>
      rw [Linking.linkAll] at hl
      split at hl
      · exact ih h hids hl
      · obtain ⟨middle, hmiddle, hl⟩ := bind_eq_ok.mp hl
        exact ih (h.link (fun he => absurd he hne) hids hmiddle) (ids_link hmiddle ▸ hids) hl

theorem Linking.Sound.linkEntities (h : linking.Sound ids n) {sources : List (Entity × TableId)}
    (hdistinct : ∀ s ∈ sources, (s.1.properties.map (·.name)).Nodup)
    (hsources : (sources.map (·.2)).Nodup)
    (hawaits : ∀ s ∈ sources, linking.Awaits s.2 s.1.properties)
    (hl : linkEntities linking sources = .ok next) : next.Sound ids n := by
  induction sources generalizing linking with
  | nil =>
      cases hl
      exact h
  | cons s rest ih =>
      obtain ⟨entity, source⟩ := s
      rw [List.forall_mem_cons] at hdistinct hawaits
      rw [List.map_cons, List.nodup_cons] at hsources
      obtain ⟨middle, hmiddle, hl⟩ := bind_eq_ok.mp hl
      have hmiddle := inEntity_eq_ok hmiddle
      refine ih (h.linkAll hdistinct.1 hawaits.1 hmiddle) hdistinct.2 hsources.2 ?_ hl
      intro s hs
      refine (hawaits.2 s hs).linkAll ?_ h.drawn.ids_nodup hmiddle
      rintro rfl
      exact hsources.1 (List.mem_map.mpr ⟨s, hs, rfl⟩)

/-- What linking a foreign key to a table preserves holds of all tables in the end. -/
theorem Linking.linkEntities_forall {P : Table → Prop}
    (hP : ∀ (t : Table) (property : String) (join : Join), P t → join.source = t.id →
      P (t.link property join))
    (h : ∀ t ∈ linking.tables, P t) {sources : List (Entity × TableId)}
    (hl : linkEntities linking sources = .ok next) : ∀ t ∈ next.tables, P t := by
  have hall : ∀ {properties : List Property} {entity source} {linking next : Linking},
      (∀ t ∈ linking.tables, P t) → linkAll entity source linking properties = .ok next →
        ∀ t ∈ next.tables, P t := by
    intro properties entity source linking next h hl
    induction properties generalizing linking with
    | nil =>
        cases hl
        exact h
    | cons property rest ih =>
        rw [Linking.linkAll] at hl
        split at hl
        · exact ih h hl
        · obtain ⟨middle, hmiddle, hl⟩ := bind_eq_ok.mp hl
          refine ih (fun t ht => ?_) hl
          obtain ⟨target, column, choice, -, -, -, rfl⟩ := link_iff.mp hmiddle
          have ht : t ∈ (linking.bare.modifyTable source
            (·.link property.name (linking.joinOf source target column choice))).tables := ht
          rcases Schema.mem_of_modifyTable ht with ht | ⟨u, hu, rfl⟩
          · exact h t ht
          · obtain ⟨hmem, rfl⟩ := Schema.mem_of_table? hu
            exact hP u _ _ (h u hmem) rfl
  induction sources generalizing linking with
  | nil =>
      cases hl
      exact h
  | cons s rest ih =>
      obtain ⟨middle, hmiddle, hl⟩ := bind_eq_ok.mp hl
      exact ih (hall h (inEntity_eq_ok hmiddle)) hl

/-! ## The schema of a document -/

/-- The mirrors find their places, and nothing else changes. -/
theorem placeMirrors {schema : Schema} {mirrors : List (TableId × Join)}
    (hm : ∀ m ∈ mirrors, m.2.source ≠ m.1 ∧ (schema.table? m.1).isSome = true) :
    let placed := mirrors.foldl (fun s m => s.modifyTable m.1 (·.addJoin m.2)) schema
    placed.owners = schema.owners ∧
      placed.mirrorRecords.Perm (mirrors ++ schema.mirrorRecords) ∧
      placed.SameTables schema := by
  induction mirrors generalizing schema with
  | nil => exact ⟨rfl, List.Perm.refl _, rfl⟩
  | cons m rest ih =>
      rw [List.forall_mem_cons] at hm
      obtain ⟨⟨hne, hsome⟩, hrest⟩ := hm
      obtain ⟨t, ht⟩ := Option.isSome_iff_exists.mp hsome
      have hstill : ∀ r ∈ rest, r.2.source ≠ r.1 ∧
          ((schema.modifyTable m.1 (·.addJoin m.2)).table? r.1).isSome = true := by
        intro r hr
        refine ⟨(hrest r hr).1, Eq.trans (Schema.table?_modifyTable_isSome fun _ => rfl) ?_⟩
        exact (hrest r hr).2
      obtain ⟨howners, hmirrors, htables⟩ := ih hstill
      refine ⟨howners.trans (Schema.owners_addJoin_mirror hne), ?_, ?_⟩
      · refine hmirrors.trans ?_
        refine (List.Perm.append_left rest (Schema.mirrorRecords_addJoin_mirror ht hne)).trans ?_
        exact List.perm_middle
      · exact htables.trans (Schema.sameTables_addJoin ..)

/-- Where mirrors are put, no join becomes pending. -/
theorem pendingJoins_placeMirrors (schema : Schema) {mirrors : List (TableId × Join)}
    (hm : ∀ m ∈ mirrors, m.2.source ≠ m.1) :
    (mirrors.foldl (fun s m => s.modifyTable m.1 (·.addJoin m.2)) schema).collect
      Table.pendingJoins = schema.collect Table.pendingJoins := by
  induction mirrors generalizing schema with
  | nil => rfl
  | cons m rest ih =>
      rw [List.forall_mem_cons] at hm
      rw [List.foldl_cons, ih _ hm.2]
      refine Schema.collect_modifyTable_eq fun t _ ht => ?_
      have hne : ¬ m.2.source = t.id := fun he => hm.1 (he.trans ht)
      show (t.joins ++ [m.2]).filter (·.source = t.id) = _
      rw [List.filter_append, List.filter_cons_of_neg (by simpa using hne)]
      exact List.append_nil _

end Source

/-- What compiling gives, with ids among the first `n` of the supply. -/
structure Schema.Compiled (ids : IdSupply) (n : Nat) (schema : Schema) : Prop where
  valid : schema.Valid
  placed : schema.MirrorsPlaced
  drawn : schema.DrawnFrom ids n
  columnNames : ∀ t ∈ schema.tables, (t.columns.map (·.name)).Nodup
  numbered : ∀ o ∈ schema.owners, ∃ k, o.2.IsNth k

theorem Schema.idTexts_eq (schema : Schema) :
    schema.collect Table.idTexts = (schema.tables.map (·.withoutJoins)).flatMap Table.idTexts := by
  rw [collect, List.flatMap_map]
  rfl

namespace Source

variable {ids : IdSupply} {n : Nat} {linking : Linking}

/-- The mirrors of a linked document are in their places. -/
theorem Linking.Sound.placed (h : linking.Sound ids n) : linking.schema.MirrorsPlaced := by
  obtain ⟨howners, hmirrors, -⟩ := placeMirrors h.mirrors
  refine h.records.perm (.of_eq howners) (hmirrors.trans (.of_eq ?_))
  -- no mirror was there before
  have hnone : linking.bare.mirrorRecords = [] := by
    refine List.eq_nil_iff_forall_not_mem.mpr fun m hm => ?_
    obtain ⟨t, ht, -, hj⟩ := Schema.mem_mirrorRecords.mp hm
    rw [h.mirrorless t ht] at hj
    cases hj
  rw [hnone, List.append_nil]

/-- A linked document that is valid is compiled but for its junction tables. -/
theorem Linking.Sound.compiled (h : linking.Sound ids n) (hv : linking.schema.Valid) :
    linking.schema.Compiled ids n := by
  obtain ⟨howners, -, htables⟩ := placeMirrors h.mirrors
  refine ⟨hv, h.placed, ?_, ?_, fun o ho => (h.sources o (howners ▸ ho)).2⟩
  · have hdrawn := h.drawn
    rw [Schema.DrawnFrom, Schema.idTexts_eq] at hdrawn ⊢
    rw [show linking.schema.tables.map _ = _ from htables]
    exact hdrawn
  · intro t ht
    obtain ⟨u, hu, he⟩ := Schema.SameTables.mem htables ht
    rw [← Table.columns_of_withoutJoins he]
    exact h.columnNames u hu

/-! ## Junction tables -/

theorem idTexts_strip (table : Table) (join : JoinId) :
    (table.strip join).idTexts.Sublist table.idTexts :=
  (table.columns_strip_sublist join fun _ => rfl).cons_cons _

/-- A junction table comes with two joins of its own, and takes the place of the other one. -/
theorem owners_junction {schema next : Schema} {join : JoinId} {declaring table : TableId}
    {config : JoinConfig}
    (hj : schema.synthesizeJunction ids join declaring config = .ok (next, table)) :
    ∃ made, next.owners = schema.owners.filter (·.2.id ≠ join) ++ made ∧
      ∀ o ∈ made, ∃ target k, o.2.target = some target ∧ o.2.source = ids.tableId 0 ∧
        o.2.id = .nth (ids.tableId 0) target.table k := by
  obtain ⟨hnv, a, b, junction, toA, toB, -, -, ha, hb, hlinks, hnext⟩ :=
    Schema.synthesizeJunction_eq_ok hj
  have hnew := Schema.junction_new hnv hnext
  refine ⟨[(junction.id, toA), (junction.id, toB)], ?_, ?_⟩
  · rw [hnext]
    exact Schema.owners_withJunction hlinks (hnew a (Schema.mem_of_table? ha).1)
      (hnew b (Schema.mem_of_table? hb).1)
  · obtain ⟨keyA, htargetA⟩ := hlinks.targetA
    obtain ⟨keyB, htargetB⟩ := hlinks.targetB
    rw [List.forall_mem_cons, List.forall_mem_singleton, ← hlinks.id]
    exact ⟨⟨_, _, htargetA, hlinks.sourceA, hlinks.idA⟩, _, _, htargetB, hlinks.sourceB, hlinks.idB⟩

theorem compiled_junction {schema next : Schema} (h : schema.Compiled ids n) {k : Nat}
    (hk : n ≤ k) {join : JoinId} {declaring table : TableId} {config : JoinConfig}
    (hj : schema.synthesizeJunction (ids.skip k) join declaring config = .ok (next, table)) :
    next.Compiled ids (k + 4) := by
  obtain ⟨hnv, a, b, junction, toA, toB, -, -, ha, hb, hlinks, hnext⟩ :=
    Schema.synthesizeJunction_eq_ok hj
  have htables : next.tables.map (·.withoutJoins) =
      (schema.strip join).tables.map (·.withoutJoins) ++ [junction.withoutJoins] := by
    rw [hnext, Schema.append, List.map_append]
    refine congrArg (· ++ _) ?_
    exact (Schema.sameTables_addJoin ..).trans (Schema.sameTables_addJoin ..)
  refine ⟨hnv, Schema.placed_junction h.placed hj, ?_, ?_, ?_⟩
  · rw [Schema.DrawnFrom, Schema.idTexts_eq, htables, List.flatMap_append, range_texts]
    refine List.Sublist.append ?_ ?_
    · rw [← Schema.idTexts_eq, Schema.strip, Schema.collect_mapTables]
      refine (Schema.collect_sublist fun t => idTexts_strip t join).trans (h.drawn.trans ?_)
      exact (List.range_sublist.mpr hk).map _
    · rw [List.flatMap_singleton, ← hlinks.idTexts]
      exact List.Sublist.refl _
  · intro t ht
    have hmem : t.withoutJoins ∈ next.tables.map (·.withoutJoins) := List.mem_map.mpr ⟨t, ht, rfl⟩
    rw [htables] at hmem
    rcases List.mem_append.mp hmem with hmem | hmem
    · obtain ⟨u, hu, he⟩ := List.mem_map.mp hmem
      obtain ⟨old, hold, rfl⟩ := List.mem_map.mp hu
      rw [← Table.columns_of_withoutJoins he]
      exact (h.columnNames old hold).sublist (old.columns_strip_sublist join fun _ => rfl)
    · rw [Table.columns_of_withoutJoins (List.mem_singleton.mp hmem)]
      exact hlinks.columnNames
  · obtain ⟨made, howners, hmade⟩ := owners_junction hj
    rw [howners, List.forall_mem_append]
    refine ⟨fun o ho => h.numbered o (List.mem_filter.mp ho).1, fun o ho => ?_⟩
    obtain ⟨target, m, htarget, hsource, hid⟩ := hmade o ho
    exact ⟨m, target, htarget, by rw [hsource, hid]⟩

theorem makeJunctions_compiled {schema next : Schema} (h : schema.Compiled ids n) {k : Nat}
    (hk : n ≤ k) {deferred : List Deferred}
    (hkinds : ∀ d ∈ deferred, d.config.kind = .manyToMany)
    (hm : makeJunctions (ids.skip k) schema deferred = .ok next) :
    ∃ n, next.Compiled ids n := by
  induction deferred generalizing schema n k with
  | nil =>
      cases hm
      exact ⟨n, h⟩
  | cons d rest ih =>
      rw [List.forall_mem_cons] at hkinds
      rw [makeJunctions] at hm
      split at hm
      · rename_i middle configured hc
        obtain ⟨declaring, -, ⟨-, table, hj⟩ | ⟨hne, -⟩⟩ := Schema.configureJoin_eq_ok hc
        · exact ih (compiled_junction h hk hj) (Nat.le_refl _) hkinds.2 hm
        · -- what waits is many-to-many, so it has no other way to go
          exact absurd hkinds.1 hne
      · cases hm

/-! ## The whole -/

/-- The tables of a document await all its foreign keys. -/
theorem awaits_of_tablesOf {entities : List Entity} {tables : List Table}
    (hnames : tables.map (·.columns.map (·.name)) = entities.map (·.properties.map (·.name)))
    (hkeys : ∀ t ∈ tables, ∀ c ∈ t.columns, c.foreignKey = none)
    {s : Entity × TableId} (hs : s ∈ entities.zip (tables.map (·.id))) :
    ∃ t ∈ tables, t.id = s.2 ∧ t.Awaits s.1.properties := by
  obtain ⟨i, hi, rfl⟩ := List.mem_iff_getElem.mp hs
  rw [List.length_zip, List.length_map] at hi
  have hit : i < tables.length := by omega
  have hie : i < entities.length := by omega
  refine ⟨tables[i], List.getElem_mem hit, by simp, fun p hp => ?_⟩
  have hcolumns : tables[i].columns.map (·.name) = entities[i].properties.map (·.name) := by
    have := congrArg (·[i]?) hnames
    simpa [hit, hie] using this
  have hp : p ∈ entities[i].properties := by simpa using hp
  have hname : p.name ∈ tables[i].columns.map (·.name) :=
    hcolumns ▸ List.mem_map.mpr ⟨p, hp, rfl⟩
  obtain ⟨c, hc, he⟩ := List.mem_map.mp hname
  exact ⟨c, hc, he, hkeys _ (List.getElem_mem hit) c hc⟩

/-- Before a foreign key is linked there is no record at all. -/
theorem sound_of_tablesOf {document : Document} (hd : document.Distinct) {tables : List Table}
    (ht : tablesOf ids document.entities = .ok tables) :
    Linking.Sound ids document.tableIdCount ⟨tables, [], [], []⟩ := by
  obtain ⟨hids, hnames, hplain⟩ := tablesOf_eq_ok ht
  have hnone : Schema.owners ⟨tables⟩ = [] := by
    refine List.eq_nil_iff_forall_not_mem.mpr fun o ho => ?_
    obtain ⟨t, ht, -, hj⟩ := Schema.mem_owners.mp ho
    rcases List.mem_append.mp hj with hj | hj
    · obtain ⟨c, hc, hf⟩ := Schema.mem_foreignKeys.mp hj
      rw [(hplain t ht).1 c hc] at hf
      cases hf
    · rw [Table.pendingJoins, (hplain t ht).2] at hj
      cases hj
  refine ⟨?_, ?_, ?_, by simp, ?_, ?_, ?_, by simp, by simp, by simp, ?_⟩
  · rw [Document.tableIdCount, Schema.DrawnFrom, ← hids]
    exact List.Sublist.refl _
  · intro t ht
    have hmem : t.columns.map (·.name) ∈ document.entities.map (·.properties.map (·.name)) :=
      hnames ▸ List.mem_map.mpr ⟨t, ht, rfl⟩
    obtain ⟨e, he, heq⟩ := List.mem_map.mp hmem
    exact heq ▸ hd.properties e he
  · intro t ht
    rw [Table.mirrors, (hplain t ht).2]
    rfl
  · show ((Schema.owners ⟨tables⟩).map _).Perm []
    rw [hnone]
    exact .nil
  · intro o ho
    rw [show Linking.bare ⟨tables, [], [], []⟩ = ⟨tables⟩ from rfl, hnone] at ho
    cases ho
  · show MirrorsMatch (Schema.owners ⟨tables⟩) []
    rw [hnone]
    exact .nil
  · have hpending : Schema.collect ⟨tables⟩ Table.pendingJoins = [] :=
      List.flatMap_eq_nil_iff.mpr fun t ht => by
        rw [Table.pendingJoins, (hplain t ht).2]
        rfl
    show ((Schema.collect ⟨tables⟩ _).map _).Perm []
    rw [hpending]
    exact .nil

/-- What holds of a document all of whose foreign keys are linked. -/
theorem sound_of_linkEntities {document : Document} (hd : document.Distinct) {tables : List Table}
    (ht : tablesOf ids document.entities = .ok tables)
    (hl : Linking.linkEntities ⟨tables, [], [], []⟩
      (document.entities.zip (tables.map (·.id))) = .ok linking) :
    linking.Sound ids document.tableIdCount := by
  obtain ⟨-, hnames, hplain⟩ := tablesOf_eq_ok ht
  have hsound := sound_of_tablesOf hd ht
  have hlength : tables.length = document.entities.length := by
    simpa using congrArg List.length hnames
  refine hsound.linkEntities ?_ ?_ ?_ hl
  · intro s hs
    exact hd.properties s.1 (List.of_mem_zip hs).1
  · rw [List.map_snd_zip (by simp [hlength])]
    exact hsound.drawn.ids_nodup
  · intro s hs
    exact awaits_of_tablesOf hnames (fun t ht => (hplain t ht).1) hs

/-- The steps by which a text compiles. -/
theorem compile_eq_ok {source : String} {ids rest : IdSupply} {parsed : Schema}
    (h : compile source ids = (.ok parsed, rest)) :
    ∃ (document : Document) (tables : List Table) (linking : Linking),
      readDocument source = .ok document ∧ document.Distinct ∧
      tablesOf ids document.entities = .ok tables ∧
      Linking.linkEntities ⟨tables, [], [], []⟩ (document.entities.zip (tables.map (·.id))) =
        .ok linking ∧
      linking.schema.Valid ∧
      makeJunctions (ids.skip document.tableIdCount) linking.schema linking.deferred =
        .ok parsed := by
  unfold compile at h
  split at h
  · rename_i document hread
    have hdistinct : document.Distinct := by
      unfold readDocument at hread
      split at hread
      · rename_i hparse
        cases hread
        exact parse_distinct hparse
      · cases hread
    have h := (Prod.mk.inj h).1
    obtain ⟨tables, htables, h⟩ := bind_eq_ok.mp h
    obtain ⟨linking, hlinking, h⟩ := bind_eq_ok.mp h
    split at h
    · exact absurd h throw_ne_ok
    · rename_i hvalid
      exact ⟨document, tables, linking, hread, hdistinct, htables, hlinking,
        Schema.validate_iff.mp hvalid, h⟩
  · cases h

/-- What a text gives, and what it leaves of the supply. -/
theorem compile_of_toOption {source : String} {ids : IdSupply} {n : Nat} {schema : Schema}
    (hcount : (readDocument source).toOption.map Document.idCount = some n)
    (hschema : (compile source ids).1.toOption = some schema) :
    compile source ids = (.ok schema, ids.skip n) := by
  refine Prod.ext (ok_of_toOption hschema) ?_
  obtain ⟨document, hread, rfl⟩ := Option.map_eq_some_iff.mp hcount
  rw [compile, ok_of_toOption hread]

/-- **What a text describes is valid, and its ids come from the supply.** -/
theorem compile_compiled {source : String} {ids rest : IdSupply} {parsed : Schema}
    (h : compile source ids = (.ok parsed, rest)) : ∃ n, parsed.Compiled ids n := by
  obtain ⟨document, tables, linking, -, hdistinct, htables, hlinking, hvalid, hmade⟩ :=
    compile_eq_ok h
  have hlinked := sound_of_linkEntities hdistinct htables hlinking
  exact makeJunctions_compiled (hlinked.compiled hvalid) (Nat.le_refl _) hlinked.deferred hmade

end Source

end ErModel
