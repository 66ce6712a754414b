import ErModel.Proofs.Seats

/-!
# The edges after an edit

An edit leaves some joins of a schema and may bring new ones, and it is fixed beforehand which: that
is what the intent says. No other join comes or goes, although records are found all over the tables
and are dropped by id everywhere. And an edge of a join that is left is the edge that it was, unless
the edit is there to configure that join.
-/

namespace ErModel

/-- Every owning record has a target, and a mirror is nowhere but on the table that the owning
record of its join refers to. -/
structure Schema.MirrorsAtTargets (schema : Schema) : Prop where
  targets : ∀ o ∈ schema.owningJoins, o.join.target.isSome = true
  mirrors : ∀ m ∈ schema.allMirrors, ∀ o ∈ schema.owningJoins, o.join.id = m.2.id →
    o.join.peer? = some m.1.id

namespace Intent

/-- The intent leaves the join that sits there. -/
def Leaves (intent : Intent) (s : Seat) : Prop :=
  match intent with
  | .deleteTable table => s.table ≠ table ∧ s.join.peer? ≠ some table
  | .deleteColumn table column => ¬ (s.table = table ∧ s.column = some column)
  | .deleteJoin join => s.join.id ≠ join
  | .configureJoin join config => config.kind = .manyToMany → s.join.id ≠ join
  | .replaceColumns table columns =>
    s.table = table → s.column.isSome = true → ∃ c ∈ columns, c.carries s.join.id = true
  | _ => True

/-- The intent brings a join of this id. A many-to-many join is replaced by two, from the junction
table to either side. -/
def Brings (schema : Schema) (ids : IdSupply) (intent : Intent) (id : JoinId) : Prop :=
  match intent with
  | .connect source target .. => id = JoinId.between source target
  | .configureJoin join config => config.kind = .manyToMany ∧
    ∃ o ∈ schema.owningJoins, o.join.id = join ∧
      (id = JoinId.nth (ids.tableId 0) o.holder.id 0 ∨
        id = JoinId.nth (ids.tableId 0) config.target.table
          (if o.holder.id = config.target.table then 1 else 0))
  | _ => False

/-- The intent is there to configure the join. -/
def Configures (intent : Intent) (id : JoinId) : Prop :=
  ∃ config, intent = .configureJoin id config

/-- The intent gives all columns of the table anew. -/
def GivesColumns (intent : Intent) (table : TableId) : Prop :=
  ∃ columns, intent = .replaceColumns table columns

/-- The intent brings no record of a join by way of columns: those that it gives carry records that
the schema has. -/
def BringsNoRecord (schema : Schema) (intent : Intent) : Prop :=
  match intent with
  | .replaceColumns _ columns => ∀ c ∈ columns, ∀ join, c.foreignKey = some join →
    ∃ o ∈ schema.owningJoins, o.join = join
  | _ => True

end Intent

namespace Schema

variable {schema next : Schema} {s : Seat}

/-! ## Joins at a table -/

/-- A mirror is nowhere but on the table that the owning record of its join refers to. -/
def MirrorsAtPeers (schema : Schema) : Prop :=
  ∀ m ∈ schema.allMirrors, ∀ o ∈ schema.owningJoins, o.join.id = m.2.id →
    o.join.peer? = some m.1.id

theorem touching_iff_seat (hv : schema.Valid) (hm : schema.MirrorsAtPeers) {table : TableId}
    {id : JoinId} : id ∈ schema.joinsTouching table ↔
      ∃ s ∈ schema.seats, s.join.id = id ∧ (s.table = table ∨ s.join.peer? = some table) := by
  rw [mem_joinsTouching hv.ids, owners_eq, mirrorRecords_eq, seats_eq]
  simp only [List.mem_map]
  constructor
  · rintro (⟨_, ⟨o, ho, rfl⟩, hid, hat⟩ | ⟨_, ⟨m, hmem, rfl⟩, rfl, rfl⟩)
    · exact ⟨o.seat, ⟨o, ho, rfl⟩, hid, hat⟩
    · -- a mirror is held by the table that its join refers to
      obtain ⟨join, hjoin, hid, -⟩ := hv.mirrors m hmem
      obtain ⟨o, ho, rfl⟩ := List.mem_map.mp hjoin
      exact ⟨o.seat, ⟨o, ho, rfl⟩, hid, Or.inr (hm m hmem o ho hid)⟩
  · rintro ⟨_, ⟨o, ho, rfl⟩, hid, hat⟩
    exact Or.inl ⟨(o.holder.id, o.join), ⟨o, ho, rfl⟩, hid, hat⟩

/-! ## What each edit leaves and brings -/

theorem mem_seats_deleteTable (hv : schema.Valid) (hm : schema.MirrorsAtTargets) {table : TableId}
    (h : schema.deleteTable table = .ok next) :
    s ∈ next.seats ↔ s ∈ schema.seats ∧ s.table ≠ table ∧ s.join.peer? ≠ some table := by
  obtain ⟨-, rfl⟩ := deleteTable_eq_ok h
  have hwithout : s ∈ Schema.seats ⟨(schema.stripAll (schema.joinsTouching table)).tables.filter
      (·.id ≠ table)⟩ ↔
      s ∈ (schema.stripAll (schema.joinsTouching table)).seats ∧ s.table ≠ table := by
    rw [mem_seats, mem_seats]
    constructor
    · rintro ⟨t, ht, hs⟩
      obtain ⟨ht, hne⟩ := List.mem_filter.mp ht
      refine ⟨⟨t, ht, hs⟩, fun he => ?_⟩
      have : t.id = table := (Table.mem_seats.mp hs).1.symm.trans he
      simp [this] at hne
    · rintro ⟨⟨t, ht, hs⟩, hne⟩
      refine ⟨t, List.mem_filter.mpr ⟨ht, ?_⟩, hs⟩
      have : t.id ≠ table := (Table.mem_seats.mp hs).1 ▸ hne
      simpa using this
  rw [hwithout, mem_seats_stripAll, touching_iff_seat hv hm.mirrors, and_assoc]
  refine and_congr_right fun hs => ?_
  constructor
  · rintro ⟨hno, hne⟩
    exact ⟨hne, fun hp => hno ⟨s, hs, rfl, Or.inr hp⟩⟩
  · rintro ⟨hne, hp⟩
    refine ⟨?_, hne⟩
    rintro ⟨s', hs', hid, hat⟩
    rw [seat_unique hv hs' hs hid] at hat
    exact hat.elim hne hp

theorem mem_seats_deleteColumn (hv : schema.Valid) {table : TableId} {column : ColumnId}
    (h : schema.deleteColumn table column = .ok next) :
    s ∈ next.seats ↔ s ∈ schema.seats ∧ ¬ (s.table = table ∧ s.column = some column) := by
  obtain ⟨-, owner, target, howner, htarget, rfl⟩ := deleteColumn_eq_ok h
  obtain ⟨hmem, rfl⟩ := mem_of_table? howner
  have hcolumn : target.id = column := by simpa using List.find?_some htarget
  have htmem : target ∈ owner.columns := List.mem_of_find?_eq_some htarget
  generalize hjoins : (target.foreignKey.map (·.id)).toList = joins
  have hids := ids_stripAll schema joins
  obtain ⟨stripped, hstripped, hid⟩ : ∃ t ∈ (schema.stripAll joins).tables, t.id = owner.id :=
    List.mem_map.mp (hids ▸ List.mem_map.mpr ⟨owner, hmem, rfl⟩)
  rw [← hid, mem_seats_change (hids ▸ hv.ids) hstripped
    (fun s => ¬ (s.table = stripped.id ∧ s.column = some column)) (fun _ => False)]
  · rw [or_false, mem_seats_stripAll, and_assoc]
    refine and_congr_right fun hs => ?_
    refine ⟨fun h => h.2, fun hnot => ⟨fun hdropped => hnot ?_, hnot⟩⟩
    -- the join that is dropped is the one that the column carries
    rw [← hjoins, Option.mem_toList] at hdropped
    obtain ⟨join, hf, hjoin⟩ := Option.map_eq_some_iff.mp hdropped
    have hseat : ⟨owner.id, some target.id, join⟩ ∈ schema.seats :=
      mem_seats.mpr ⟨owner, hmem, Table.mem_seats.mpr ⟨rfl, Or.inl ⟨target, htmem, rfl, hf⟩⟩⟩
    rw [seat_unique hv hs hseat hjoin.symm]
    exact ⟨hid.symm, congrArg some hcolumn⟩
  · intro s
    rw [Table.mem_seats_withoutColumn, or_false]
    refine and_congr_right fun hs => ?_
    simp [(Table.mem_seats.mp hs).1]
  · exact fun s _ hne h => hne h.1

/-- The seat of a configured join is new, and those of the other joins stay. -/
theorem mem_seats_configured (hv : schema.Valid) {ids : IdSupply} {record : Join} {peer : Table}
    {key : ColumnId} {dataType : DataType} (ht : record.target = some ⟨peer.id, some key⟩)
    (hs : (schema.table? record.source).isSome = true)
    (hfk : ∀ t c, schema.foreignKey? record.id = some (t, c) → record.source = t.id)
    (hnext : next = (schema.placeForeignKey ids record
      ((schema.foreignKey? record.id).map (·.2.id)) peer dataType).1) :
    ∃ column, ∀ s, s ∈ next.seats ↔ s ∈ schema.seats ∧ s.join.id ≠ record.id ∨
      s = ⟨record.source, some column, record⟩ := by
  rw [placeForeignKey_eq ht] at hnext
  cases hf : schema.foreignKey? record.id with
  | some found =>
      obtain ⟨holder, column⟩ := found
      rw [hf] at hnext
      exact ⟨column.id, fun s => mem_seats_onColumn hv ht hf (hfk _ _ hf) hnext⟩
  | none =>
      rw [hf] at hnext
      change next = ((schema.strip record.id).modifyTable record.source
        fun t => t.addColumn (Column.foreign (ids.columnId 0) record.source
          (t.freeColumnName (foreignKeyName peer.name)) dataType record)).addMirror record at hnext
      exact ⟨ids.columnId 0,
        fun s => mem_seats_onNewColumn hv ht hs (fun _ => rfl) (fun _ => rfl) hnext⟩

/-- A join that is declared has a seat on the table that declares it. -/
theorem seat_of_declaring {join : JoinId} {declaring : TableId}
    (h : schema.declaring? join = some declaring) :
    ∃ o ∈ schema.owningJoins, o.join.id = join ∧ o.holder.id = declaring := by
  rcases declaring?_eq_some h with ⟨t, c, hf, rfl⟩ | ⟨-, t, record, hf, rfl⟩
  · obtain ⟨ht, hc, hcarries⟩ := foreignKey?_eq_some hf
    obtain ⟨old, hfk, hid⟩ := Column.carries_iff.mp hcarries
    exact ⟨_, mem_owningJoins_of_column ht hc hfk, hid, rfl⟩
  · obtain ⟨ho, hid⟩ := owned_of_pending? hf
    exact ⟨_, ho, hid, rfl⟩

/-- A junction table has two seats, and the join that it replaces has none. -/
theorem mem_seats_junction {ids : IdSupply} {join : JoinId} {declaring table : TableId}
    {config : JoinConfig}
    (hj : schema.synthesizeJunction ids join declaring config = .ok (next, table)) :
    ∃ (toA toB : Join) (made : List Seat), made.map (·.join) = [toA, toB] ∧
      toA.id = JoinId.nth (ids.tableId 0) declaring 0 ∧
      toB.id = JoinId.nth (ids.tableId 0) config.target.table
        (if declaring = config.target.table then 1 else 0) ∧
      toA.target.isSome = true ∧ toB.target.isSome = true ∧
      ∀ s, s ∈ next.seats ↔ s ∈ schema.seats ∧ s.join.id ≠ join ∨ s ∈ made := by
  obtain ⟨hnv, a, b, junction, toA, toB, rfl, hb, ha, hbt, hlinks, hnext⟩ :=
    synthesizeJunction_eq_ok hj
  have hnew := junction_new hnv hnext
  obtain ⟨keyA, htA⟩ := hlinks.targetA
  obtain ⟨keyB, htB⟩ := hlinks.targetB
  refine ⟨toA, toB, junction.seats, ?_, ?_, ?_, by rw [htA]; rfl, by rw [htB]; rfl, fun s => ?_⟩
  · rw [← Table.owners_eq_seats, hlinks.owners]
  · rw [hlinks.idA, hlinks.id]
  · rw [hlinks.idB, hlinks.id, hb]
  · rw [hnext, seats_append, List.mem_append, seats_addJoin_mirror, seats_addJoin_mirror,
      mem_seats_strip]
    · exact hlinks.sourceA ▸ hnew a (mem_of_table? ha).1
    · exact hlinks.sourceB ▸ hnew b (mem_of_table? hbt).1

/-! ## Columns that are given anew -/

/-- The seats off the columns that are replaced stay, and those on them are on the given ones. -/
structure Regiven (schema next : Schema) (table : TableId) (columns : List Column) : Prop where
  stays : ∀ s ∈ schema.seats, (s.table = table → s.column = none) → s ∈ next.seats
  given : ∀ c ∈ columns, ∀ join, c.foreignKey = some join →
    ∃ column, ⟨table, some column, join⟩ ∈ next.seats
  origin : ∀ s ∈ next.seats, s ∈ schema.seats ∧ (s.table = table → s.column = none) ∨
    s.table = table ∧ s.column.isSome = true ∧ ∃ c ∈ columns, c.foreignKey = some s.join

theorem regiven (hv : schema.Valid) {table : TableId} {given : List Column}
    (h : schema.replaceColumns table given = .ok next) : schema.Regiven next table given := by
  obtain ⟨-, current, columns, key, hcurrent, hkeys, -, rfl⟩ := replaceColumns_eq_ok h
  obtain ⟨hmem, rfl⟩ := mem_of_table? hcurrent
  let change : Table → Table := fun t => { t with columns := columns, primaryKey := key }
  have hgiven : ∀ join, (∃ c ∈ given, c.foreignKey = some join) ↔
      ∃ c ∈ columns, c.foreignKey = some join := by
    intro join
    rw [← mem_foreignKeys, ← mem_foreignKeys, hkeys]
  -- what is dropped was carried by a column, and no given one carries it
  have hseats : ∀ s, s ∈ Schema.seats ((schema.modifyTable current.id change).stripAll
      (current.carriedJoins.filter (· ∉ columns.filterMap (·.foreignKey.map (·.id))))) ↔
      (s ∈ schema.seats ∧ s.table ≠ current.id ∨ s ∈ (change current).seats) ∧
        s.join.id ∉ current.carriedJoins.filter
          (· ∉ columns.filterMap (·.foreignKey.map (·.id))) := by
    intro s
    rw [mem_seats_stripAll, mem_seats_modifyTable hv.ids hmem]
  have hcarried : ∀ s ∈ schema.seats, (s.table = current.id → s.column = none) →
      s.join.id ∉ current.carriedJoins := by
    intro s hs hoff hcarried
    obtain ⟨join, hj, hid⟩ := mem_carried.mp hcarried
    obtain ⟨c, hc, hf⟩ := mem_foreignKeys.mp hj
    have hseat : ⟨current.id, some c.id, join⟩ ∈ schema.seats :=
      mem_seats.mpr ⟨current, hmem, Table.mem_seats.mpr ⟨rfl, Or.inl ⟨c, hc, rfl, hf⟩⟩⟩
    rw [seat_unique hv hs hseat hid.symm] at hoff
    cases hoff rfl
  refine ⟨fun s hs hoff => ?_, fun c hc join hf => ?_, fun s hs => ?_⟩
  · refine (hseats s).mpr ⟨?_, fun hd => hcarried s hs hoff (List.mem_filter.mp hd).1⟩
    by_cases he : s.table = current.id
    · -- a pending join of the table
      obtain ⟨t, ht, hst⟩ := mem_seats.mp hs
      obtain ⟨htable, ⟨c, -, hcolumn, -⟩ | ⟨hnone, hp⟩⟩ := Table.mem_seats.mp hst
      · rw [hoff he] at hcolumn
        cases hcolumn
      · rw [eq_of_key_eq hv.ids ht hmem (htable.symm.trans he)] at hp
        exact Or.inr (Table.mem_seats.mpr ⟨he, Or.inr ⟨hnone, hp⟩⟩)
    · exact Or.inl ⟨hs, he⟩
  · obtain ⟨d, hd, hdf⟩ := (hgiven join).mp ⟨c, hc, hf⟩
    refine ⟨d.id, (hseats _).mpr ⟨Or.inr ?_, fun hdropped => ?_⟩⟩
    · exact Table.mem_seats.mpr ⟨rfl, Or.inl ⟨d, hd, rfl, hdf⟩⟩
    · have hno := (List.mem_filter.mp hdropped).2
      rw [decide_eq_true_eq] at hno
      exact hno (mem_carried.mpr ⟨join, mem_foreignKeys.mpr ⟨d, hd, hdf⟩, rfl⟩)
  · obtain ⟨⟨hold, hne⟩ | hmine, -⟩ := (hseats s).mp hs
    · exact Or.inl ⟨hold, fun he => absurd he hne⟩
    · obtain ⟨htable, ⟨c, hc, hcolumn, hf⟩ | ⟨hnone, hp⟩⟩ := Table.mem_seats.mp hmine
      · exact Or.inr ⟨htable, by rw [hcolumn]; rfl, (hgiven _).mpr ⟨c, hc, hf⟩⟩
      · refine Or.inl ⟨mem_seats.mpr ⟨current, hmem, ?_⟩, fun _ => hnone⟩
        exact Table.mem_seats.mpr ⟨htable, Or.inr ⟨hnone, hp⟩⟩

/-! ## Edges -/

theorem edgeIds_eq (h : ∀ o ∈ schema.owningJoins, o.join.target.isSome = true) :
    schema.edges.map (·.id) = schema.owningJoins.map (·.join.id) := by
  rw [edges, List.map_filterMap, ← List.filterMap_eq_map]
  refine filterMap_congr_left fun o ho => ?_
  obtain ⟨target, ht⟩ := Option.isSome_iff_exists.mp (h o ho)
  rw [OwnedJoin.edge?, Join.peer?, ht]
  rfl

/-- An edge shows nothing of a join but its record, its table and whether it is configured. -/
theorem edge?_congr {o o' : OwnedJoin} (hholder : o'.holder.id = o.holder.id)
    (hjoin : o'.join = o.join) (hconfigured : o'.isConfigured = o.isConfigured) :
    o'.edge? = o.edge? := by
  rw [OwnedJoin.edge?, OwnedJoin.edge?, hholder, hjoin, hconfigured]

/-- The edges of a schema after an edit are those that the intent says, and the joins that were
there before and are not configured by it are drawn as they were. -/
structure EdgesFollow (schema next : Schema) (ids : IdSupply) (intent : Intent) : Prop where
  drawnBefore : schema.edges.map (·.id) = schema.owningJoins.map (·.join.id)
  drawnAfter : next.edges.map (·.id) = next.owningJoins.map (·.join.id)
  distinct : (next.edges.map (·.id)).Nodup
  edges : ∀ id, id ∈ next.edges.map (·.id) ↔
    (∃ o ∈ schema.owningJoins, o.join.id = id ∧ intent.Leaves o.seat) ∨
      intent.Brings schema ids id
  kept : ∀ o ∈ schema.owningJoins, ∀ o' ∈ next.owningJoins, o'.join.id = o.join.id →
    ¬ intent.Configures o.join.id →
    o'.holder.id = o.holder.id ∧ o'.join = o.join ∧ o'.edge? = o.edge? ∧
      (¬ intent.GivesColumns o.holder.id → o'.seat = o.seat)

variable {ids : IdSupply} {intent : Intent}

/-- It is enough to look at seats. -/
theorem edgesFollow (hnv : next.Valid)
    (htargets : ∀ o ∈ schema.owningJoins, o.join.target.isSome = true)
    (hnext : ∀ s ∈ next.seats, s.join.target.isSome = true)
    (hedges : ∀ id, (∃ s ∈ next.seats, s.join.id = id) ↔
      (∃ s ∈ schema.seats, s.join.id = id ∧ intent.Leaves s) ∨ intent.Brings schema ids id)
    (hkept : ∀ s ∈ schema.seats, ∀ s' ∈ next.seats, s'.join.id = s.join.id →
      ¬ intent.Configures s.join.id → s'.table = s.table ∧ s'.join = s.join ∧
        s'.column.isSome = s.column.isSome ∧ (¬ intent.GivesColumns s.table → s' = s)) :
    schema.EdgesFollow next ids intent := by
  have hseat : ∀ {schema : Schema} {o : OwnedJoin}, o ∈ schema.owningJoins → o.seat ∈ schema.seats :=
    fun {schema o} ho => seats_eq schema ▸ List.mem_map.mpr ⟨o, ho, rfl⟩
  have hafter := edgeIds_eq fun o ho => hnext o.seat (hseat ho)
  refine ⟨edgeIds_eq htargets, hafter, hafter ▸ hnv.ownerIds, fun id => ?_, ?_⟩
  · rw [hafter, ← seatIds_eq, List.mem_map, hedges, seats_eq]
    refine or_congr ?_ Iff.rfl
    constructor
    · rintro ⟨_, hs, hid, hleft⟩
      obtain ⟨o, ho, rfl⟩ := List.mem_map.mp hs
      exact ⟨o, ho, hid, hleft⟩
    · rintro ⟨o, ho, hid, hleft⟩
      exact ⟨o.seat, List.mem_map.mpr ⟨o, ho, rfl⟩, hid, hleft⟩
  · intro o ho o' ho' hid hc
    obtain ⟨htable, hjoin, hcolumn, hsame⟩ := hkept o.seat (hseat ho) o'.seat (hseat ho') hid hc
    refine ⟨htable, hjoin, edge?_congr htable hjoin ?_, hsame⟩
    simpa [OwnedJoin.seat, OwnedJoin.isConfigured] using hcolumn

/-- Some seats stay and some are added. If any are, all stay but that of the configured join. -/
theorem edgesFollow_of_seats (hv : schema.Valid) (hnv : next.Valid)
    (htargets : ∀ o ∈ schema.owningJoins, o.join.target.isSome = true)
    (stays : Seat → Prop) (added : List Seat)
    (hseats : ∀ s, s ∈ next.seats ↔ s ∈ schema.seats ∧ stays s ∨ s ∈ added)
    (hadded : ∀ s ∈ added, s.join.target.isSome = true)
    (hedges : ∀ id, (∃ s ∈ schema.seats, s.join.id = id ∧ stays s) ∨
      (∃ s ∈ added, s.join.id = id) ↔
      (∃ s ∈ schema.seats, s.join.id = id ∧ intent.Leaves s) ∨ intent.Brings schema ids id)
    (hstays : added ≠ [] → ∀ s, ¬ intent.Configures s.join.id → stays s) :
    schema.EdgesFollow next ids intent := by
  refine edgesFollow hnv htargets (fun s hs => ?_) (fun id => ?_) ?_
  · rcases (hseats s).mp hs with ⟨hs, -⟩ | hs
    · rw [seats_eq] at hs
      obtain ⟨o, ho, rfl⟩ := List.mem_map.mp hs
      exact htargets o ho
    · exact hadded s hs
  · rw [← hedges]
    constructor
    · rintro ⟨s, hs, hid⟩
      rcases (hseats s).mp hs with ⟨hs, hstays⟩ | hs
      · exact Or.inl ⟨s, hs, hid, hstays⟩
      · exact Or.inr ⟨s, hs, hid⟩
    · rintro (⟨s, hs, hid, hstays⟩ | ⟨s, hs, hid⟩)
      · exact ⟨s, (hseats s).mpr (Or.inl ⟨hs, hstays⟩), hid⟩
      · exact ⟨s, (hseats s).mpr (Or.inr hs), hid⟩
  · intro s hs s' hs' hid hc
    rcases (hseats s').mp hs' with ⟨hs', -⟩ | hs'
    · obtain rfl := seat_unique hv hs' hs hid
      exact ⟨rfl, rfl, rfl, fun _ => rfl⟩
    · -- one that stays is not added again
      have hold := (hseats s).mpr (Or.inl ⟨hs, hstays (List.ne_nil_of_mem hs') s hc⟩)
      obtain rfl := seat_unique hnv ((hseats s').mpr (Or.inr hs')) hold hid
      exact ⟨rfl, rfl, rfl, fun _ => rfl⟩

/-- Nothing is added. -/
theorem edgesFollow_of_left (hv : schema.Valid) (hnv : next.Valid)
    (htargets : ∀ o ∈ schema.owningJoins, o.join.target.isSome = true)
    (hbrings : ∀ id, ¬ intent.Brings schema ids id)
    (hseats : ∀ s, s ∈ next.seats ↔ s ∈ schema.seats ∧ intent.Leaves s) :
    schema.EdgesFollow next ids intent := by
  refine edgesFollow_of_seats hv hnv htargets intent.Leaves [] (fun s => ?_)
    (fun s hs => absurd hs List.not_mem_nil) (fun id => ?_) (fun h => absurd rfl h)
  · simpa using hseats s
  · simp [hbrings id]

/-- The seats are what they were. -/
theorem edgesFollow_of_same (hv : schema.Valid) (hnv : next.Valid)
    (htargets : ∀ o ∈ schema.owningJoins, o.join.target.isSome = true)
    (hbrings : ∀ id, ¬ intent.Brings schema ids id) (hleaves : ∀ s, intent.Leaves s)
    (hseats : next.seats = schema.seats) : schema.EdgesFollow next ids intent :=
  edgesFollow_of_left hv hnv htargets hbrings fun s => by simp [hseats, hleaves s]

theorem seats_append_of_owners_nil {table : Table} (h : table.owners = []) :
    (schema.append table).seats = schema.seats := by
  rw [seats_append, Table.seats_of_owners_nil h, List.append_nil]

theorem edgesFollow_connect (hv : schema.Valid)
    (htargets : ∀ o ∈ schema.owningJoins, o.join.target.isSome = true) {source target : TableId}
    {column : Option ColumnId} {onDelete onUpdate : Action} {id : JoinId}
    (h : schema.connect source target column onDelete onUpdate = .ok (next, id)) :
    schema.EdgesFollow next ids (.connect source target column onDelete onUpdate) := by
  rcases connect_eq_ok h with ⟨hcontains, rfl⟩ | ⟨hnv, join, referenced, hid, rfl, ht, hs, -, rfl⟩
  · -- the join is there already
    rw [containsJoin_iff, ← ownerIds_eq, ← seatIds_eq] at hcontains
    obtain ⟨s, hs, hid⟩ := List.mem_map.mp hcontains
    refine edgesFollow_of_seats hv hv htargets (fun _ => True) [] (fun s => by simp)
      (fun s hs => absurd hs List.not_mem_nil) (fun id => ?_) (fun _ _ _ => trivial)
    simp only [Intent.Leaves, Intent.Brings, List.not_mem_nil, false_and, exists_false, or_false]
    refine ⟨Or.inl, ?_⟩
    rintro (hleft | rfl)
    · exact hleft
    · exact ⟨s, hs, hid, trivial⟩
  · refine edgesFollow_of_seats hv hnv htargets (fun _ => True) [⟨join.source, none, join⟩]
      (fun s => ?_) ?_ (fun id => ?_) (fun _ _ _ => trivial)
    · rw [mem_seats_declare hv.ids ht hs, and_true, List.mem_singleton]
    · rw [List.forall_mem_singleton, ht]
      rfl
    · simp only [Intent.Leaves, Intent.Brings, List.mem_singleton, exists_eq_left, hid]
      exact or_congr Iff.rfl eq_comm

theorem edgesFollow_configureJoin (hv : schema.Valid)
    (htargets : ∀ o ∈ schema.owningJoins, o.join.target.isSome = true) {join : JoinId}
    {config : JoinConfig} {configured : Configured}
    (h : schema.configureJoin ids join config = .ok (next, configured)) :
    schema.EdgesFollow next ids (.configureJoin join config) := by
  obtain ⟨declaring, hdeclaring, hbuilt⟩ := configureJoin_eq_ok h
  obtain ⟨owned, howned, hid, hholder⟩ := seat_of_declaring hdeclaring
  have hseat : owned.seat ∈ schema.seats := seats_eq schema ▸ List.mem_map.mpr ⟨owned, howned, rfl⟩
  rcases hbuilt with ⟨hkind, table, hj⟩ | ⟨hkind, hnv, record, peer, key, dataType, rfl, ht, -, hs,
    hfk, hnext⟩
  · -- a junction table takes the place of the join
    have hnv := (synthesizeJunction_eq_ok hj).1
    obtain ⟨toA, toB, made, hmade, hidA, hidB, htA, htB, hseats⟩ := mem_seats_junction hj
    have hmem : ∀ s ∈ made, s.join = toA ∨ s.join = toB := by
      intro s hs
      have hjoin : s.join ∈ made.map (·.join) := List.mem_map.mpr ⟨s, hs, rfl⟩
      rw [hmade] at hjoin
      simpa using hjoin
    have hbrings : ∀ id, (∃ s ∈ made, s.join.id = id) ↔ id = toA.id ∨ id = toB.id := by
      intro id
      have hids : made.map (·.join.id) = [toA.id, toB.id] := by
        have := congrArg (List.map Join.id) hmade
        rwa [List.map_map] at this
      rw [← List.mem_map, hids]
      simp
    refine edgesFollow_of_seats hv hnv htargets (·.join.id ≠ join) made hseats ?_ (fun id => ?_) ?_
    · intro s hs
      rcases hmem s hs with he | he
      · rw [he, htA]
      · rw [he, htB]
    · rw [hbrings, hidA, hidB, ← hholder]
      simp only [Intent.Leaves, Intent.Brings, hkind, true_and, forall_const]
      refine or_congr Iff.rfl ⟨fun h => ⟨owned, howned, hid, h⟩, ?_⟩
      rintro ⟨o, ho, ho', h⟩
      have hsame : o = owned := eq_of_key_eq hv.ownerIds ho howned (ho'.trans hid.symm)
      rwa [hsame] at h
    · exact fun _ s hc he => hc ⟨config, he ▸ rfl⟩
  · obtain ⟨column, hseats⟩ := mem_seats_configured hv ht hs hfk hnext
    refine edgesFollow_of_seats hv hnv htargets (·.join.id ≠ record.id)
      [⟨record.source, some column, record⟩] (fun s => ?_) ?_ (fun id => ?_) ?_
    · rw [hseats, List.mem_singleton]
    · rw [List.forall_mem_singleton, ht]
      rfl
    · simp only [Intent.Leaves, Intent.Brings, hkind, false_and, or_false, List.mem_singleton,
        exists_eq_left, false_implies, and_true]
      constructor
      · rintro (⟨s, hs, hid, -⟩ | rfl)
        · exact ⟨s, hs, hid⟩
        · exact ⟨owned.seat, hseat, hid⟩
      · rintro ⟨s, hs, rfl⟩
        by_cases he : s.join.id = record.id
        · exact Or.inr he.symm
        · exact Or.inl ⟨s, hs, rfl, he⟩
    · exact fun _ s hc he => hc ⟨config, he ▸ rfl⟩

theorem edgesFollow_replaceColumns (hv : schema.Valid)
    (htargets : ∀ o ∈ schema.owningJoins, o.join.target.isSome = true) {table : TableId}
    {columns : List Column} (hb : (Intent.replaceColumns table columns).BringsNoRecord schema)
    (h : schema.replaceColumns table columns = .ok next) :
    schema.EdgesFollow next ids (.replaceColumns table columns) := by
  have hnv := (replaceColumns_eq_ok h).1
  obtain ⟨hstays, hgiven, horigin⟩ := regiven hv h
  -- a given column carries a record that the schema has
  have hold : ∀ c ∈ columns, ∀ join, c.foreignKey = some join → ∃ s ∈ schema.seats, s.join = join := by
    intro c hc join hf
    obtain ⟨o, ho, rfl⟩ := hb c hc join hf
    exact ⟨o.seat, seats_eq schema ▸ List.mem_map.mpr ⟨o, ho, rfl⟩, rfl⟩
  refine edgesFollow hnv htargets (fun s hs => ?_) (fun id => ?_) ?_
  · have hmem : ∃ s' ∈ schema.seats, s'.join = s.join := by
      rcases horigin s hs with ⟨hs, -⟩ | ⟨-, -, c, hc, hf⟩
      · exact ⟨s, hs, rfl⟩
      · exact hold c hc _ hf
    obtain ⟨s', hs', he⟩ := hmem
    rw [seats_eq] at hs'
    obtain ⟨o, ho, rfl⟩ := List.mem_map.mp hs'
    exact he ▸ htargets o ho
  · simp only [Intent.Brings, or_false]
    constructor
    · rintro ⟨s, hs, rfl⟩
      rcases horigin s hs with ⟨hmem, hoff⟩ | ⟨-, -, c, hc, hf⟩
      · refine ⟨s, hmem, rfl, fun he hcolumn => ?_⟩
        rw [hoff he] at hcolumn
        cases hcolumn
      · obtain ⟨s', hs', he⟩ := hold c hc _ hf
        have hcarries := Column.carries_iff.mpr ⟨_, hf, congrArg _ he.symm⟩
        exact ⟨s', hs', congrArg _ he, fun _ _ => ⟨c, hc, hcarries⟩⟩
    · rintro ⟨s, hs, rfl, hleft⟩
      by_cases hon : s.table = table ∧ s.column.isSome = true
      · obtain ⟨c, hc, hcarry⟩ := hleft hon.1 hon.2
        obtain ⟨join, hf, hid⟩ := Column.carries_iff.mp hcarry
        obtain ⟨column, hmem⟩ := hgiven c hc join hf
        exact ⟨_, hmem, hid⟩
      · refine ⟨s, hstays s hs fun he => ?_, rfl⟩
        simpa using fun hsome => hon ⟨he, hsome⟩
  · intro s hs s' hs' hid _
    by_cases hon : s.table = table ∧ s.column.isSome = true
    · rcases horigin s' hs' with ⟨hmem, -⟩ | ⟨htable, hcolumn, c, hc, hf⟩
      · obtain rfl := seat_unique hv hmem hs hid
        exact ⟨rfl, rfl, rfl, fun _ => rfl⟩
      · -- the record is the one that the table had
        obtain ⟨old, hmem, hjoin⟩ := hold c hc _ hf
        obtain rfl := seat_unique hv hmem hs ((congrArg _ hjoin).trans hid)
        exact ⟨htable.trans hon.1.symm, hjoin.symm, hcolumn.trans hon.2.symm,
          fun h => absurd ⟨columns, hon.1 ▸ rfl⟩ h⟩
    · have hleft := hstays s hs fun he => by simpa using fun hsome => hon ⟨he, hsome⟩
      obtain rfl := seat_unique hnv hs' hleft hid
      exact ⟨rfl, rfl, rfl, fun _ => rfl⟩

/-- **The edges of a schema evolve exactly as the intent says.** -/
theorem edges_follow {schema next : Schema} (hv : schema.validate = .ok ())
    (hm : schema.MirrorsAtTargets) {ids : IdSupply} {intent : Intent}
    (hb : intent.BringsNoRecord schema) {effect : Effect}
    (h : schema.apply ids intent = .ok (next, effect)) : schema.EdgesFollow next ids intent := by
  rw [validate_iff] at hv
  have ht := hm.targets
  have hnv := valid_apply hv h
  cases intent with
  | createTable name keyType =>
      obtain ⟨⟨built, id⟩, hbuilt, hr⟩ := bind_eq_ok.mp h
      cases hr
      obtain ⟨-, rfl⟩ := createTable_eq_ok hbuilt
      exact edgesFollow_of_same hv hnv ht (fun _ h => h) (fun _ => trivial)
        (seats_append_of_owners_nil rfl)
  | deleteTable table =>
      obtain ⟨built, hbuilt, hr⟩ := bind_eq_ok.mp h
      cases hr
      exact edgesFollow_of_left hv hnv ht (fun _ h => h) fun s => mem_seats_deleteTable hv hm hbuilt
  | duplicateTable table =>
      obtain ⟨⟨built, id⟩, hbuilt, hr⟩ := bind_eq_ok.mp h
      cases hr
      obtain ⟨-, pattern, name, -, rfl⟩ := duplicateTable_eq_ok hbuilt
      exact edgesFollow_of_same hv hnv ht (fun _ h => h) (fun _ => trivial)
        (seats_append_of_owners_nil (owners_copy pattern name ids))
  | replaceColumns table columns =>
      obtain ⟨built, hbuilt, hr⟩ := bind_eq_ok.mp h
      cases hr
      exact edgesFollow_replaceColumns hv ht hb hbuilt
  | replaceTableFields table patch =>
      obtain ⟨built, hbuilt, hr⟩ := bind_eq_ok.mp h
      cases hr
      obtain ⟨-, rfl⟩ := replaceTableFields_eq_ok hbuilt
      exact edgesFollow_of_same hv hnv ht (fun _ h => h) (fun _ => trivial)
        (seats_modifyTable_eq fun _ _ _ => rfl)
  | addColumn table name =>
      obtain ⟨⟨built, id⟩, hbuilt, hr⟩ := bind_eq_ok.mp h
      cases hr
      obtain ⟨-, -, column, -, hnone, -, rfl⟩ := addColumn_eq_ok hbuilt
      refine edgesFollow_of_same hv hnv ht (fun _ h => h) (fun _ => trivial)
        (seats_modifyTable_eq fun t _ _ => ?_)
      rw [Table.seats, Table.seats, List.filterMap_append, List.filterMap_cons_none (by rw [hnone]; rfl),
        List.filterMap_nil, List.append_nil]
      rfl
  | deleteColumn table column =>
      obtain ⟨built, hbuilt, hr⟩ := bind_eq_ok.mp h
      cases hr
      exact edgesFollow_of_left hv hnv ht (fun _ h => h) fun s => mem_seats_deleteColumn hv hbuilt
  | connect source target column onDelete onUpdate =>
      obtain ⟨⟨built, id⟩, hbuilt, hr⟩ := bind_eq_ok.mp h
      cases hr
      exact edgesFollow_connect hv ht hbuilt
  | configureJoin join config =>
      obtain ⟨⟨built, configured⟩, hbuilt, hr⟩ := bind_eq_ok.mp h
      cases hr
      exact edgesFollow_configureJoin hv ht hbuilt
  | deleteJoin join =>
      obtain ⟨built, hbuilt, hr⟩ := bind_eq_ok.mp h
      cases hr
      obtain ⟨-, rfl⟩ := deleteJoin_eq_ok hbuilt
      exact edgesFollow_of_left hv hnv ht (fun _ h => h) fun s => mem_seats_strip

/-- A choice that leaves all but the target and the kind as it is by default. -/
def configTo (target : TableId) (kind : JoinKind) : JoinConfig where
  target := ⟨target, none⟩
  kind := kind
  onDelete := .cascade
  onUpdate := .restrict
  through := none
  joinColumn := none
  inverseColumn := none

/-- Users and their posts: a post knows its user, and users are to like posts. -/
def postsOfUsers : Schema :=
  let author := (configTo ⟨"u"⟩ .manyToOne).record (.between ⟨"p"⟩ ⟨"u"⟩) ⟨"p"⟩ ⟨"u"⟩ ⟨"u1"⟩
  let likes := (configTo ⟨"p"⟩ .oneToOne).record (.between ⟨"u"⟩ ⟨"p"⟩) ⟨"u"⟩ ⟨"p"⟩ ⟨"p1"⟩
  let users := Table.seeded ⟨"u"⟩ ⟨"u1"⟩ "User" .uuid
  let posts := (Table.seeded ⟨"p"⟩ ⟨"p1"⟩ "Post" .uuid).addColumn
    (Column.foreign ⟨"p2"⟩ ⟨"p"⟩ "userId" .uuid author)
  (((empty.append users).append posts).addMirror author).declare likes

/-- The pending join is replaced by two from a junction table, and the other one stays. -/
theorem postsOfUsers_edges : postsOfUsers.validate = .ok () ∧ ∃ next effect,
    postsOfUsers.apply ⟨"j", 0⟩ (.configureJoin ⟨"u->p"⟩ (configTo ⟨"p"⟩ .manyToMany)) =
      .ok (next, effect) ∧
    next.edges.map (·.id) = [⟨"p->u"⟩, ⟨"j000000000000->u"⟩, ⟨"j000000000000->p"⟩] ∧
    postsOfUsers.EdgesFollow next ⟨"j", 0⟩
      (.configureJoin ⟨"u->p"⟩ (configTo ⟨"p"⟩ .manyToMany)) := by
  have hvalidate : postsOfUsers.validate = .ok () := ok_of_toOption (by decide +kernel)
  have hplaced : postsOfUsers.MirrorsAtTargets := ⟨by decide +kernel, by decide +kernel⟩
  have hedges : (postsOfUsers.apply ⟨"j", 0⟩ (.configureJoin ⟨"u->p"⟩
      (configTo ⟨"p"⟩ .manyToMany))).toOption.map (·.1.edges.map (·.id)) =
      some [⟨"p->u"⟩, ⟨"j000000000000->u"⟩, ⟨"j000000000000->p"⟩] := by decide +kernel
  obtain ⟨⟨next, effect⟩, happlied, hids⟩ := Option.map_eq_some_iff.mp hedges
  have happlied := ok_of_toOption happlied
  exact ⟨hvalidate, next, effect, happlied, hids, edges_follow hvalidate hplaced trivial happlied⟩

end Schema

end ErModel
