import ErModel.Edit.Intent
import ErModel.Proofs.Fresh
import ErModel.Proofs.Records

/-!
# What edits build

An edit that succeeds has built a schema that is valid, and here it is said which one: one lemma for
each edit, with what the edit has checked on its way. Proofs about edits start from these and do not
open the edits themselves.
-/

namespace ErModel

namespace Schema

theorem settled {schema next : Schema} : schema.settle = .ok next ↔ next.Valid ∧ next = schema := by
  rw [settle_eq_ok, validate_iff]
  exact ⟨fun ⟨hv, hn⟩ => ⟨hn ▸ hv, hn⟩, fun ⟨hv, hn⟩ => ⟨hn ▸ hv, hn⟩⟩

theorem settle_of_valid {schema : Schema} (h : schema.Valid) : schema.settle = .ok schema :=
  settled.mpr ⟨h, rfl⟩

/-- An edit that hands out what it has built, and something beside it. -/
theorem settled_beside {α : Type} {schema next : Schema} {a b : α}
    (h : (schema.settle >>= fun s => pure (s, a)) = .ok (next, b)) :
    next.Valid ∧ next = schema ∧ b = a := by
  rw [bind_eq_ok] at h
  obtain ⟨built, hs, hr⟩ := h
  obtain ⟨hv, rfl⟩ := settled.mp hs
  cases hr
  exact ⟨hv, rfl, rfl⟩

theorem requireTable_eq_ok {schema : Schema} {id : TableId} {t : Table} :
    schema.requireTable id = .ok t ↔ schema.table? id = some t := by
  unfold requireTable
  cases schema.table? id with
  | none => simp
  | some u => simp

end Schema

/-- A result that no check on the way gives: a success, or a violation in what an edit has built. -/
def Decided {α : Type} (r : Except EditError α) : Prop :=
  (∃ a, r = .ok a) ∨ ∃ v, r = .error (.violation v)

theorem Decided.ne_error {α : Type} {r : Except EditError α} (hr : Decided r) {e : EditError}
    (he : ∀ v, e ≠ .violation v) : .error e ≠ r := by
  rintro rfl
  rcases hr with ⟨a, h⟩ | ⟨v, h⟩
  · cases h
  · cases h
    exact he v rfl

namespace Schema

theorem requireTable_bind_iff {α : Type} {schema : Schema} {id : TableId}
    {f : Table → Except EditError α} {r : Except EditError α} (hr : Decided r) :
    (schema.requireTable id >>= f) = r ↔ ∃ t, schema.table? id = some t ∧ f t = r := by
  unfold requireTable
  cases schema.table? id with
  | none =>
      simp only [reduceCtorEq, false_and, exists_false, iff_false]
      exact hr.ne_error fun v he => by cases he
  | some t => simp [bind, Except.bind]

theorem checkReferenced_bind_iff {α : Type} {table : Table} {column : Option ColumnId}
    {f : Unit → Except EditError α} {r : Except EditError α} (hr : Decided r) :
    (table.checkReferenced column >>= f) = r ↔
      (∀ c, column = some c → (table.column? c).isSome = true) ∧ f () = r := by
  unfold Table.checkReferenced
  cases column with
  | none => simp [bind, Except.bind]
  | some c =>
      cases hc : (table.column? c).isSome with
      | true => simp [bind, Except.bind, hc]
      | false =>
          simp only [Option.some.injEq, forall_eq', hc, Bool.false_eq_true, if_false, false_and,
            iff_false]
          exact hr.ne_error fun v he => by cases he

/-! ## Tables and columns -/

theorem createTable_eq_ok {schema next : Schema} {ids : IdSupply} {name : String}
    {keyType : DataType} {id : TableId} (h : schema.createTable ids name keyType = .ok (next, id)) :
    next.Valid ∧ next = schema.append
      (Table.seeded (ids.tableId 0) (ids.columnId 1) (schema.freeTableName name) keyType) := by
  rw [createTable] at h
  obtain ⟨hv, hn, -⟩ := settled_beside h
  exact ⟨hv, hn⟩

theorem duplicateTable_eq_ok {schema next : Schema} {ids : IdSupply} {table id : TableId}
    (h : schema.duplicateTable ids table = .ok (next, id)) :
    next.Valid ∧ ∃ (pattern : Table) (name : String), schema.table? table = some pattern ∧
      next = schema.append (pattern.copy name ids) := by
  rw [duplicateTable, bind_eq_ok] at h
  obtain ⟨pattern, hp, h⟩ := h
  obtain ⟨hv, hn, -⟩ := settled_beside h
  exact ⟨hv, pattern, _, requireTable_eq_ok.mp hp, hn⟩

theorem deleteTable_eq_ok {schema next : Schema} {table : TableId}
    (h : schema.deleteTable table = .ok next) :
    next.Valid ∧
      next = ⟨(schema.stripAll (schema.joinsTouching table)).tables.filter (·.id ≠ table)⟩ := by
  rw [deleteTable, bind_eq_ok] at h
  obtain ⟨_, -, hs⟩ := h
  exact settled.mp hs

theorem replaceTableFields_eq_ok {schema next : Schema} {table : TableId} {patch : TablePatch}
    (h : schema.replaceTableFields table patch = .ok next) :
    next.Valid ∧ next = schema.modifyTable table patch.apply := by
  rw [replaceTableFields, bind_eq_ok] at h
  obtain ⟨_, -, h⟩ := h
  cases hn : patch.name with
  | none => exact settled.mp (by simpa only [hn] using h)
  | some name =>
      simp only [hn] at h
      split at h
      · exact absurd h (by simp [bind, Except.bind, throw, throwThe, MonadExceptOf.throw])
      · exact settled.mp h

theorem addColumn_eq_ok {schema next : Schema} {ids : IdSupply} {table : TableId} {name : String}
    {id : ColumnId} (h : schema.addColumn ids table name = .ok (next, id)) :
    next.Valid ∧ ∃ (current : Table) (column : Column), schema.table? table = some current ∧
      column.foreignKey = none ∧ column.name = current.freeColumnName name ∧
      next = schema.modifyTable table fun t => { t with columns := t.columns ++ [column] } := by
  rw [addColumn, bind_eq_ok] at h
  obtain ⟨current, hc, h⟩ := h
  obtain ⟨hv, hn, -⟩ := settled_beside h
  exact ⟨hv, current, _, requireTable_eq_ok.mp hc, rfl, rfl, hn⟩

/-- Deleting a column is decided by the schema without it and the join that it carries; what comes
before are checks. -/
theorem deleteColumn_iff {schema : Schema} {table : TableId} {column : ColumnId}
    {r : Except EditError Schema} (hr : Decided r) : schema.deleteColumn table column = r ↔
      ∃ (owner : Table) (target : Column), schema.table? table = some owner ∧
        owner.column? column = some target ∧ target.primaryKey = false ∧
        settle ((schema.stripAll ((target.foreignKey.map (·.id)).toList)).modifyTable table
          fun t => { t with columns := t.columns.filter (·.id ≠ column) }) = r := by
  rw [deleteColumn, requireTable_bind_iff hr]
  refine exists_congr fun owner => ?_
  rw [exists_and_left]
  refine and_congr_right fun _ => ?_
  cases owner.column? column with
  | none =>
      simp only [reduceCtorEq, false_and, exists_false, iff_false]
      exact hr.ne_error fun v he => by cases he
  | some target =>
      simp only [Option.some.injEq, exists_eq_left']
      by_cases hp : target.primaryKey = true
      · -- a key is not deleted
        rw [if_pos hp, hp]
        simp only [Bool.true_eq_false, false_and, iff_false]
        exact hr.ne_error fun v he => by cases he
      · rw [if_neg hp, and_iff_right (Bool.not_eq_true _ ▸ hp)]
        cases target.foreignKey <;> exact Iff.rfl

theorem deleteColumn_eq_ok {schema next : Schema} {table : TableId} {column : ColumnId}
    (h : schema.deleteColumn table column = .ok next) :
    next.Valid ∧ ∃ (owner : Table) (target : Column), schema.table? table = some owner ∧
      owner.column? column = some target ∧
      next = (schema.stripAll ((target.foreignKey.map (·.id)).toList)).modifyTable table
        fun t => { t with columns := t.columns.filter (·.id ≠ column) } := by
  obtain ⟨owner, target, howner, htarget, -, hbuilt⟩ :=
    (deleteColumn_iff (Or.inl ⟨_, rfl⟩)).mp h
  obtain ⟨hv, hn⟩ := settled.mp hbuilt
  exact ⟨hv, owner, target, howner, htarget, hn⟩

/-- The keys of columns are put in order without touching anything else. -/
theorem settleKey_map {α : Type} {f : Column → α} {given columns : List Column}
    {previous key : Option ColumnId} (hf : ∀ c k, f { c with primaryKey := k } = f c)
    (h : settleKey given previous = .ok (columns, key)) : columns.map f = given.map f := by
  unfold settleKey at h
  split at h
  · rename_i he
    have hg : given = [] := by simpa using he
    simp only [Except.ok.injEq, Prod.mk.injEq] at h
    rw [← h.1, hg]
  · split at h
    · -- only the flags of keys change
      simp only [Except.ok.injEq, Prod.mk.injEq] at h
      rw [← h.1, List.map_map]
      exact List.map_congr_left fun c _ => hf c _
    · cases h

theorem replaceColumns_eq_ok {schema next : Schema} {table : TableId} {given : List Column}
    (h : schema.replaceColumns table given = .ok next) :
    next.Valid ∧ ∃ (current : Table) (columns : List Column) (key : Option ColumnId),
      schema.table? table = some current ∧
      columns.filterMap (·.foreignKey) = given.filterMap (·.foreignKey) ∧
      columns.map (·.name) = given.map (·.name) ∧
      next = (schema.modifyTable table fun t =>
          { t with columns := columns, primaryKey := key }).stripAll
        (current.carriedJoins.filter (· ∉ columns.filterMap (·.foreignKey.map (·.id)))) := by
  rw [replaceColumns, bind_eq_ok] at h
  obtain ⟨current, hc, h⟩ := h
  rw [requireTable_eq_ok] at hc
  rw [bind_eq_ok] at h
  obtain ⟨⟨columns, key⟩, hk, h⟩ := h
  obtain ⟨hv, hn⟩ := settled.mp h
  refine ⟨hv, current, columns.map (·.normalize), key, hc, ?_, ?_, hn⟩
  · have hkeys := settleKey_map (f := (·.foreignKey)) (fun _ _ => rfl) hk
    rw [List.map_map] at hkeys
    have hid : ∀ cs : List Column,
        cs.filterMap (·.foreignKey) = (cs.map (·.foreignKey)).filterMap id :=
      fun cs => by rw [List.filterMap_map]; rfl
    rw [hid, hid given, List.map_map]
    exact congrArg _ hkeys
  · have hnames := settleKey_map (f := (·.name)) (fun _ _ => rfl) hk
    rw [List.map_map] at hnames ⊢
    exact hnames

/-! ## Joins -/

/-- The schema with the mirror that an owning record asks for, on the table that it refers to. A
record that refers to its own table asks for none. -/
def addMirror (schema : Schema) (join : Join) : Schema :=
  match join.target with
  | none => schema
  | some target =>
    if target.table = join.source then schema
    else schema.modifyTable target.table (·.addJoin join.mirror)

/-- The schema with a further pending join and its mirror. -/
def declare (schema : Schema) (join : Join) : Schema :=
  (schema.addMirror join).modifyTable join.source (·.addJoin join)

theorem addMirror_of_ne {schema : Schema} {join : Join} {target : JoinTarget}
    (ht : join.target = some target) (hne : target.table ≠ join.source) :
    schema.addMirror join = schema.modifyTable target.table (·.addJoin join.mirror) := by
  rw [addMirror, ht]
  exact if_neg hne

theorem addMirror_of_eq {schema : Schema} {join : Join} {target : JoinTarget}
    (ht : join.target = some target) (he : target.table = join.source) :
    schema.addMirror join = schema := by
  rw [addMirror, ht]
  exact if_pos he

/-- Declaring a join puts its mirror on the other table first. -/
theorem declare_eq_ite (schema : Schema) (join : Join) {target : JoinTarget}
    (ht : join.target = some target) :
    (if join.source ≠ target.table then schema.modifyTable target.table (·.addJoin join.mirror)
      else schema).modifyTable join.source (·.addJoin join) = schema.declare join := by
  by_cases he : target.table = join.source
  · rw [declare, addMirror_of_eq ht he, if_neg (by simp [he])]
  · rw [declare, addMirror_of_ne ht he, if_pos (Ne.symm he)]

end Schema

/-- The record of a join that connecting two tables declares. -/
def Join.declared (source target : TableId) (column : Option ColumnId)
    (onDelete onUpdate : Action) : Join where
  id := JoinId.between source target
  kind := .oneToOne
  source := source
  target := some ⟨target, column⟩
  onDelete := onDelete
  onUpdate := onUpdate
  through := none
  joinColumn := none
  inverseColumn := none

namespace Schema

/-- Connecting two tables is decided by the schema with a further join, unless the pair has one. -/
theorem connect_iff {schema : Schema} {source target : TableId} {column : Option ColumnId}
    {onDelete onUpdate : Action} {r : Except EditError (Schema × JoinId)} (hr : Decided r) :
    schema.connect source target column onDelete onUpdate = r ↔ ∃ owner peer,
      schema.table? source = some owner ∧ schema.table? target = some peer ∧
      (schema.containsJoin (JoinId.between source target) = true ∧
        .ok (schema, JoinId.between source target) = r ∨
      schema.containsJoin (JoinId.between source target) = false ∧
        (∀ c, column = some c → (peer.column? c).isSome = true) ∧
        ((schema.declare (.declared source target (column.or (peer.keyColumn?.map (·.id))) onDelete
          onUpdate)).settle >>= fun next => pure (next, JoinId.between source target)) = r) := by
  rw [connect, requireTable_bind_iff hr]
  refine exists_congr fun owner => ?_
  rw [requireTable_bind_iff hr, exists_and_left]
  refine and_congr_right fun _ => exists_congr fun peer => and_congr_right fun _ => ?_
  dsimp only
  cases hc : schema.containsJoin (JoinId.between source target) with
  | true =>
      -- the pair has a join already
      simp only [if_true, true_and, Bool.true_eq_false, false_and, or_false]
      exact Iff.rfl
  | false =>
      simp only [Bool.false_eq_true, if_false, false_and, true_and, false_or]
      rw [checkReferenced_bind_iff hr, ← declare_eq_ite schema (.declared source target
        (column.or (peer.keyColumn?.map (·.id))) onDelete onUpdate) rfl]
      rfl

theorem connect_eq_ok {schema next : Schema} {source target : TableId} {column : Option ColumnId}
    {onDelete onUpdate : Action} {id : JoinId}
    (h : schema.connect source target column onDelete onUpdate = .ok (next, id)) :
    schema.containsJoin (JoinId.between source target) = true ∧ next = schema ∨
    next.Valid ∧ ∃ (join : Join) (referenced : Option ColumnId),
      join.id = JoinId.between source target ∧ join.source = source ∧
      join.target = some ⟨target, referenced⟩ ∧
      (schema.table? source).isSome ∧ (schema.table? target).isSome ∧
      next = schema.declare join := by
  obtain ⟨owner, peer, ho, hp, ⟨hc, hr⟩ | ⟨-, -, hbuilt⟩⟩ := (connect_iff (Or.inl ⟨_, rfl⟩)).mp h
  · cases hr
    exact Or.inl ⟨hc, rfl⟩
  · obtain ⟨hv, hn, -⟩ := settled_beside hbuilt
    exact Or.inr ⟨hv, _, _, rfl, rfl, rfl, by rw [ho]; rfl, by rw [hp]; rfl, hn⟩

theorem foreignKey?_eq_some {schema : Schema} {join : JoinId} {t : Table} {c : Column}
    (h : schema.foreignKey? join = some (t, c)) :
    t ∈ schema.tables ∧ c ∈ t.columns ∧ c.carries join = true := by
  obtain ⟨u, hu, hf⟩ := List.exists_of_findSome?_eq_some h
  obtain ⟨d, hd, he⟩ := Option.map_eq_some_iff.mp hf
  cases he
  exact ⟨hu, List.mem_of_find?_eq_some hd, List.find?_some (p := fun x : Column => x.carries join) hd⟩

theorem owned_of_pending? {schema : Schema} {join : JoinId} {t : Table} {record : Join}
    (h : schema.pending? join = some (t, record)) :
    ⟨t, none, record⟩ ∈ schema.owningJoins ∧ record.id = join := by
  obtain ⟨owner, howner, hfound⟩ := List.exists_of_findSome?_eq_some h
  obtain ⟨found, hfound, he⟩ := Option.map_eq_some_iff.mp hfound
  cases he
  have hpending := List.find?_some hfound
  simp only [Bool.and_eq_true, decide_eq_true_eq] at hpending
  exact ⟨mem_owningJoins_of_pending howner (List.mem_of_find?_eq_some hfound) hpending.2,
    hpending.1⟩

theorem mem_of_pending? {schema : Schema} {join : JoinId} {t : Table} {record : Join}
    (h : schema.pending? join = some (t, record)) : t ∈ schema.tables :=
  (mem_owningJoins (owned_of_pending? h).1).1

theorem table?_isSome_of_mem {schema : Schema} {t : Table} (ht : t ∈ schema.tables) :
    (schema.table? t.id).isSome = true :=
  List.find?_isSome.mpr ⟨t, ht, by simp⟩

/-! ### Configuring -/

/-- The table that declares a join: the one with its column, or else the one with its pending
record. -/
def declaring? (schema : Schema) (join : JoinId) : Option TableId :=
  ((schema.foreignKey? join).map (·.1.id)).or ((schema.pending? join).map (·.1.id))

/-- The table that is to hold the column of a join, and the table that it is to refer to. -/
def configuredEnds (schema : Schema) (join : JoinId) (config : JoinConfig) (declaring : TableId) :
    TableId × TableId :=
  if (schema.foreignKey? join).isNone && config.kind = .oneToMany then
    (config.target.table, declaring)
  else (declaring, config.target.table)

end Schema

/-- The column that a join is to refer to: the chosen one if it is on that table, or else the first
key. -/
def JoinConfig.key? (config : JoinConfig) (referenced : Table) : Option Column :=
  if referenced.id = config.target.table && config.target.column.isSome then
    config.target.column.bind referenced.column?
  else referenced.keyColumn?

/-- The record of a configured join. -/
def JoinConfig.record (config : JoinConfig) (join : JoinId) (holder referenced : TableId)
    (key : ColumnId) : Join :=
  { id := join
    kind := config.kind
    source := holder
    target := some ⟨referenced, some key⟩
    onDelete := config.onDelete
    onUpdate := config.onUpdate
    through := config.through
    joinColumn := none
    inverseColumn := none }

namespace Schema

/-- The schema with a join configured, and the column that carries it. -/
def withForeignKey (schema : Schema) (ids : IdSupply) (join : JoinId) (config : JoinConfig)
    (holder : TableId) (referenced : Table) (key : Column) : Schema × ColumnId :=
  schema.placeForeignKey ids (config.record join holder referenced.id key.id)
    ((schema.foreignKey? join).map (·.2.id)) referenced key.dataType

/-- Configuring a join is decided by the junction table, or by the schema with a foreign key; what
comes before are checks. -/
theorem configureJoin_iff {schema : Schema} {ids : IdSupply} {join : JoinId} {config : JoinConfig}
    {r : Except EditError (Schema × Configured)} (hr : Decided r) :
    schema.configureJoin ids join config = r ↔ ∃ chosen declaring,
      schema.table? config.target.table = some chosen ∧
      (∀ c, config.target.column = some c → (chosen.column? c).isSome = true) ∧
      schema.declaring? join = some declaring ∧
      (config.kind = .manyToMany ∧
        (schema.synthesizeJunction ids join declaring config >>= fun built =>
          pure (built.1, .junction built.2)) = r ∨
      config.kind ≠ .manyToMany ∧ ∃ holder referenced key,
        schema.configuredEnds join config declaring = (holder, referenced.id) ∧
        schema.table? referenced.id = some referenced ∧ config.key? referenced = some key ∧
        ((schema.withForeignKey ids join config holder referenced key).1.settle >>= fun next =>
          pure (next, .foreignKey holder
            (schema.withForeignKey ids join config holder referenced key).2)) = r) := by
  rw [configureJoin, requireTable_bind_iff hr]
  refine exists_congr fun chosen => ?_
  rw [exists_and_left]
  refine and_congr_right fun hchosen => ?_
  rw [checkReferenced_bind_iff hr, exists_and_left]
  refine and_congr_right fun hcolumn => ?_
  dsimp only
  have hdeclaring : ((schema.foreignKey? join).map (·.1.id)).or
    ((schema.pending? join).map (·.1.id)) = schema.declaring? join := rfl
  rw [hdeclaring]
  cases hd : schema.declaring? join with
  | none =>
      simp only [reduceCtorEq, false_and, exists_false, iff_false]
      exact hr.ne_error fun v he => by cases he
  | some declaring =>
      simp only [Option.some.injEq, exists_eq_left']
      by_cases hk : config.kind = .manyToMany
      · simp only [hk, if_true, true_and, ne_eq, not_true_eq_false, false_and, or_false]
      simp only [hk, if_false, false_and, ne_eq, not_false_eq_true, true_and, false_or]
      -- which table holds the column depends on the kind of a join that is pending
      rw [configuredEnds]
      generalize (if ((schema.foreignKey? join).isNone &&
        decide (config.kind = JoinKind.oneToMany)) = true then (config.target.table, declaring)
        else (declaring, config.target.table)) = ends
      obtain ⟨holder, referenced⟩ := ends
      rw [requireTable_bind_iff hr]
      constructor
      · rintro ⟨peer, hpeer, hbuilt⟩
        obtain ⟨-, rfl⟩ := mem_of_table? hpeer
        refine ⟨holder, peer, ?_⟩
        split at hbuilt
        · rename_i key hkey
          exact ⟨key, rfl, hpeer, hkey, hbuilt⟩
        · exact absurd hbuilt (hr.ne_error fun v he => by cases he)
      · rintro ⟨_, peer, key, hends, hpeer, hkey, hbuilt⟩
        cases hends
        refine ⟨peer, hpeer, ?_⟩
        rw [JoinConfig.key?] at hkey
        simp only [hkey]
        exact hbuilt

theorem declaring?_eq_some {schema : Schema} {join : JoinId} {declaring : TableId}
    (h : schema.declaring? join = some declaring) :
    (∃ t c, schema.foreignKey? join = some (t, c) ∧ t.id = declaring) ∨
    schema.foreignKey? join = none ∧
      ∃ t record, schema.pending? join = some (t, record) ∧ t.id = declaring := by
  unfold declaring? at h
  cases hf : schema.foreignKey? join with
  | some found =>
      rw [hf] at h
      exact Or.inl ⟨found.1, found.2, rfl, Option.some.inj h⟩
  | none =>
      rw [hf] at h
      obtain ⟨⟨t, record⟩, hfound, he⟩ := Option.map_eq_some_iff.mp h
      exact Or.inr ⟨rfl, t, record, hfound, he⟩

/-- The table that is to hold the column exists, and a join that has a column keeps it, and so its
table. -/
theorem configuredEnds_holder {schema : Schema} {join : JoinId} {config : JoinConfig}
    {declaring holder referenced : TableId}
    (hchosen : (schema.table? config.target.table).isSome = true)
    (hdeclaring : schema.declaring? join = some declaring)
    (hends : schema.configuredEnds join config declaring = (holder, referenced)) :
    (schema.table? holder).isSome = true ∧
      ∀ t c, schema.foreignKey? join = some (t, c) → holder = t.id := by
  refine ⟨?_, fun t c hf => ?_⟩
  · unfold configuredEnds at hends
    split at hends
    · rw [← (Prod.mk.inj hends).1]
      exact hchosen
    · rw [← (Prod.mk.inj hends).1]
      rcases declaring?_eq_some hdeclaring with ⟨t, c, hf, rfl⟩ | ⟨-, t, record, hf, rfl⟩
      · exact table?_isSome_of_mem (foreignKey?_eq_some hf).1
      · exact table?_isSome_of_mem (mem_of_pending? hf)
  · rw [configuredEnds, hf, if_neg (by simp)] at hends
    rw [declaring?, hf] at hdeclaring
    exact (Prod.mk.inj hends).1.symm.trans (Option.some.inj hdeclaring).symm

/-- Configuring a join gives it a junction table or a foreign key. -/
theorem configureJoin_eq_ok {schema next : Schema} {ids : IdSupply} {join : JoinId}
    {config : JoinConfig} {configured : Configured}
    (h : schema.configureJoin ids join config = .ok (next, configured)) :
    ∃ declaring, schema.declaring? join = some declaring ∧
    (config.kind = .manyToMany ∧
      (∃ table, schema.synthesizeJunction ids join declaring config = .ok (next, table)) ∨
    (config.kind ≠ .manyToMany ∧ next.Valid ∧
      ∃ (record : Join) (peer : Table) (key : ColumnId) (dataType : DataType),
      record.id = join ∧ record.target = some ⟨peer.id, some key⟩ ∧
      schema.table? peer.id = some peer ∧ (schema.table? record.source).isSome ∧
      (∀ t c, schema.foreignKey? join = some (t, c) → record.source = t.id) ∧
      next = (schema.placeForeignKey ids record ((schema.foreignKey? join).map (·.2.id)) peer
        dataType).1)) := by
  obtain ⟨chosen, declaring, hchosen, -, hdeclaring, hbuilt⟩ :=
    (configureJoin_iff (Or.inl ⟨_, rfl⟩)).mp h
  refine ⟨declaring, hdeclaring, ?_⟩
  rcases hbuilt with ⟨hkind, hbuilt⟩ | ⟨hkind, holder, peer, key, hends, hpeer, hkey, hbuilt⟩
  · obtain ⟨⟨built, table⟩, hs, hr⟩ := bind_eq_ok.mp hbuilt
    cases hr
    exact Or.inl ⟨hkind, table, hs⟩
  · obtain ⟨hv, hn, -⟩ := settled_beside hbuilt
    obtain ⟨hholder, hfk⟩ := configuredEnds_holder (hchosen ▸ rfl) hdeclaring hends
    exact Or.inr ⟨hkind, hv, _, peer, key.id, key.dataType, rfl, rfl, hpeer, hholder, hfk, hn⟩

end Schema

/-- A table of its own, with ids from a supply, that relates `a` and `b` by two foreign keys. -/
structure Table.Links (junction : Table) (ids : IdSupply) (a b : Table) (toA toB : Join) : Prop where
  id : junction.id = ids.tableId 0
  columnIds : junction.columns.map (·.id) = [ids.columnId 1, ids.columnId 2, ids.columnId 3]
  columnNames : (junction.columns.map (·.name)).Nodup
  owners : junction.owners = [toA, toB]
  mirrors : junction.mirrors = []
  pending : junction.pendingJoins = []
  idA : toA.id = JoinId.nth junction.id a.id 0
  idB : toB.id = JoinId.nth junction.id b.id (if a.id = b.id then 1 else 0)
  sourceA : toA.source = junction.id
  sourceB : toB.source = junction.id
  targetA : ∃ key, toA.target = some ⟨a.id, some key⟩
  targetB : ∃ key, toB.target = some ⟨b.id, some key⟩

/-- A new column with a free name has the name for itself. -/
theorem Table.names_addColumn {table : Table} {column : Column} {wanted : String}
    (h : (table.columns.map (·.name)).Nodup) (hname : column.name = table.freeColumnName wanted) :
    ((table.addColumn column).columns.map (·.name)).Nodup := by
  rw [addColumn, List.map_append, List.nodup_append]
  refine ⟨h, by simp, ?_⟩
  intro name hmem other hother he
  rw [List.map_singleton, List.mem_singleton, hname] at hother
  rw [he, hother] at hmem
  exact freeName_not_mem _ _ hmem

/-- A foreign key column of a junction has a name of its own. -/
theorem Table.names_addJunctionColumn {junction : Table} {id : ColumnId} {wanted : String}
    {key : Column} {join : Join} (h : (junction.columns.map (·.name)).Nodup) :
    ((junction.addJunctionColumn id wanted key join).columns.map (·.name)).Nodup :=
  names_addColumn h rfl

namespace Schema

/-- The junction table between `a` and `b`, and the joins from it. -/
def junctionBetween (ids : IdSupply) (config : JoinConfig) (a b : Table) (aKey bKey : Column) :
    Table × Join × Join :=
  let seeded := Table.seeded (ids.tableId 0) (ids.columnId 1) (junctionName config a b)
    (junctionKeyType a)
  let toA := junctionJoin config seeded.id a aKey 0
  let toB := junctionJoin config seeded.id b bKey (if a.id = b.id then 1 else 0)
  let withA := seeded.addJunctionColumn (ids.columnId 2)
    (junctionColumnName config.joinColumn a.name) aKey toA
  (withA.addJunctionColumn (ids.columnId 3) (junctionColumnName config.inverseColumn b.name) bKey
    toB, toA, toB)

/-- The schema with a join replaced by a junction table. -/
def withJunction (schema : Schema) (join : JoinId) (a b : Table) (made : Table × Join × Join) :
    Schema :=
  (((schema.strip join).modifyTable a.id (·.addJoin made.2.1.mirror)).modifyTable b.id
    (·.addJoin made.2.2.mirror)).append made.1

theorem links_junctionBetween (ids : IdSupply) (config : JoinConfig) (a b : Table)
    (aKey bKey : Column) :
    (junctionBetween ids config a b aKey bKey).1.Links ids a b
      (junctionBetween ids config a b aKey bKey).2.1
      (junctionBetween ids config a b aKey bKey).2.2 where
  id := rfl
  columnIds := rfl
  columnNames := Table.names_addJunctionColumn
    (Table.names_addJunctionColumn (by simp [Table.seeded]))
  owners := rfl
  mirrors := rfl
  pending := rfl
  idA := rfl
  idB := rfl
  sourceA := rfl
  sourceB := rfl
  targetA := ⟨_, rfl⟩
  targetB := ⟨_, rfl⟩

/-- Making a junction table is decided by the schema with it; what comes before are checks. -/
theorem synthesizeJunction_iff {schema : Schema} {ids : IdSupply} {join : JoinId}
    {declaring : TableId} {config : JoinConfig} {r : Except EditError (Schema × TableId)}
    (hr : Decided r) :
    schema.synthesizeJunction ids join declaring config = r ↔ ∃ a b aKey bKey,
      schema.table? declaring = some a ∧ schema.table? config.target.table = some b ∧
      a.junctionKey? config.joinColumn = some aKey ∧
      b.junctionKey? config.inverseColumn = some bKey ∧
      schema.tableNamed? (junctionName config a b) = none ∧
      ((schema.withJunction join a b (junctionBetween ids config a b aKey bKey)).settle >>=
        fun next => pure (next, ids.tableId 0)) = r := by
  rw [synthesizeJunction, requireTable_bind_iff hr]
  refine exists_congr fun a => ?_
  simp only [exists_and_left]
  refine and_congr_right fun ha => ?_
  rw [requireTable_bind_iff hr]
  refine exists_congr fun b => and_congr_right fun hb => ?_
  cases haKey : a.junctionKey? config.joinColumn with
  | none =>
      simp only [reduceCtorEq, false_and, exists_false, iff_false]
      exact hr.ne_error fun v he => by cases he
  | some aKey =>
      cases hbKey : b.junctionKey? config.inverseColumn with
      | none =>
          simp only [reduceCtorEq, false_and, exists_false, and_false, iff_false]
          exact hr.ne_error fun v he => by cases he
      | some bKey =>
          simp only [Option.some.injEq, exists_eq_left']
          cases hname : schema.tableNamed? (junctionName config a b) with
          | none =>
              simp only [Option.isSome_none, Bool.false_eq_true, if_false, true_and]
              exact Iff.rfl
          | some taken =>
              simp only [Option.isSome_some, if_true, reduceCtorEq, false_and, iff_false]
              exact hr.ne_error fun v he => by cases he

theorem synthesizeJunction_eq_ok {schema next : Schema} {ids : IdSupply} {join : JoinId}
    {declaring table : TableId} {config : JoinConfig}
    (h : schema.synthesizeJunction ids join declaring config = .ok (next, table)) :
    next.Valid ∧ ∃ (a b junction : Table) (toA toB : Join),
      a.id = declaring ∧ b.id = config.target.table ∧
      schema.table? a.id = some a ∧ schema.table? b.id = some b ∧
      junction.Links ids a b toA toB ∧
      next = (((schema.strip join).modifyTable a.id (·.addJoin toA.mirror)).modifyTable b.id
        (·.addJoin toB.mirror)).append junction := by
  obtain ⟨a, b, aKey, bKey, ha, hb, -, -, -, hbuilt⟩ := (synthesizeJunction_iff (Or.inl ⟨_, rfl⟩)).mp h
  obtain ⟨-, rfl⟩ := mem_of_table? ha
  obtain ⟨-, hbid⟩ := mem_of_table? hb
  obtain ⟨hv, hn, -⟩ := settled_beside hbuilt
  exact ⟨hv, a, b, _, _, _, rfl, hbid, ha, hbid ▸ hb, links_junctionBetween .., hn⟩

theorem deleteJoin_eq_ok {schema next : Schema} {join : JoinId}
    (h : schema.deleteJoin join = .ok next) : next.Valid ∧ next = schema.strip join := by
  unfold deleteJoin at h
  split at h
  · cases h
  · exact settled.mp h

/-- **What an edit hands out is valid**, if the schema was. -/
theorem valid_apply {schema next : Schema} (hv : schema.Valid) {ids : IdSupply} {intent : Intent}
    {effect : Effect} (h : schema.apply ids intent = .ok (next, effect)) : next.Valid := by
  cases intent with
  | createTable name keyType =>
      obtain ⟨built, hb, hr⟩ := bind_eq_ok.mp h
      cases hr
      exact (createTable_eq_ok hb).1
  | deleteTable table =>
      obtain ⟨built, hb, hr⟩ := bind_eq_ok.mp h
      cases hr
      exact (deleteTable_eq_ok hb).1
  | duplicateTable table =>
      obtain ⟨built, hb, hr⟩ := bind_eq_ok.mp h
      cases hr
      exact (duplicateTable_eq_ok hb).1
  | replaceColumns table columns =>
      obtain ⟨built, hb, hr⟩ := bind_eq_ok.mp h
      cases hr
      exact (replaceColumns_eq_ok hb).1
  | replaceTableFields table patch =>
      obtain ⟨built, hb, hr⟩ := bind_eq_ok.mp h
      cases hr
      exact (replaceTableFields_eq_ok hb).1
  | addColumn table name =>
      obtain ⟨built, hb, hr⟩ := bind_eq_ok.mp h
      cases hr
      exact (addColumn_eq_ok hb).1
  | deleteColumn table column =>
      obtain ⟨built, hb, hr⟩ := bind_eq_ok.mp h
      cases hr
      exact (deleteColumn_eq_ok hb).1
  | connect source target column onDelete onUpdate =>
      obtain ⟨built, hb, hr⟩ := bind_eq_ok.mp h
      cases hr
      rcases connect_eq_ok hb with ⟨-, he⟩ | hbuilt
      · rw [he]
        exact hv
      · exact hbuilt.1
  | configureJoin join config =>
      obtain ⟨built, hb, hr⟩ := bind_eq_ok.mp h
      cases hr
      obtain ⟨declaring, -, ⟨-, table, hj⟩ | ⟨-, hbuilt, -⟩⟩ := configureJoin_eq_ok hb
      · exact (synthesizeJunction_eq_ok hj).1
      · exact hbuilt
  | deleteJoin join =>
      obtain ⟨built, hb, hr⟩ := bind_eq_ok.mp h
      cases hr
      exact (deleteJoin_eq_ok hb).1

end Schema

end ErModel
