import ErModel.Proofs.Constructing
import ErModel.Proofs.MirrorRuns
import ErModel.Proofs.Reconfiguring

/-!
# Joins that are named after two tables

A join gets the id of the pair of tables between which it is declared, and keeps it for as long as it
is there. Connecting the pair again looks for that id. So it gives the join of the pair as long as
the id speaks the truth, and there is one edit that makes it lie: to configure the join, and choose
another table than the one that it refers to. From then on the pair cannot be connected any more;
what is given instead is a join with somebody else.

That nothing else does this is an invariant of runs. A join that an edit leaves is where it was, one
that an edit makes is named after its two ends, and a configured join swaps its ends at most.
-/

namespace ErModel

/-- The join is between two tables: one of them holds it, and it refers to the other. -/
def Seat.Between (s : Seat) (a b : TableId) : Prop :=
  s.table = a ∧ s.join.peer? = some b ∨ s.table = b ∧ s.join.peer? = some a

theorem Seat.Between.symm {s : Seat} {a b : TableId} (h : s.Between a b) : s.Between b a :=
  Or.symm h

/-- An intent, and the ids that it may draw on. -/
structure Edit where
  ids : IdSupply
  intent : Intent

/-- The ids are plain, as generated ids are, and no columns are given anew. -/
structure Edit.Ordinary (edit : Edit) : Prop where
  plain : PlainText edit.ids.stem
  columns : ∀ table, ¬ edit.intent.GivesColumns table

/-- Whether the intent may leave a record that the schema has not had. -/
def Intent.MakesRecords : Intent → Prop
  | .connect .. | .configureJoin .. | .replaceColumns .. => True
  | _ => False

namespace Schema

/-- The schema after an edit. One that is refused leaves it as it is. -/
def edited (schema : Schema) (edit : Edit) : Schema :=
  match schema.apply edit.ids edit.intent with
  | .ok (next, _) => next
  | .error _ => schema

/-- The schema after some edits. -/
def editedAll (schema : Schema) (edits : List Edit) : Schema := edits.foldl edited schema

/-- The result of connecting two tables: the join has one owning record, and is left as it is if it
is there already. -/
structure Connects (schema : Schema) (source target : TableId) (column : Option ColumnId)
    (onDelete onUpdate : Action) (next : Schema) (o : OwnedJoin) : Prop where
  made : schema.connect source target column onDelete onUpdate =
    .ok (next, .between source target)
  owner : next.owningJoins.filter (·.join.id = .between source target) = [o]
  same : schema.containsJoin (.between source target) = true → next = schema

/-- Any two tables can be connected, and `P` holds of the owning record and the two. -/
def ConnectsAll (schema : Schema) (P : OwnedJoin → TableId → TableId → Prop) : Prop :=
  ∀ source ∈ schema.tables, ∀ target ∈ schema.tables, ∀ column onDelete onUpdate,
    (∀ c, column = some c → (target.column? c).isSome = true) →
      ∃ next o, schema.Connects source.id target.id column onDelete onUpdate next o ∧
        P o source.id target.id

/-- A join that is named after its two ends is configured, and another table is chosen than the one
that it refers to. -/
def Moves (schema : Schema) (edit : Edit) : Prop :=
  ∃ join config next done, edit.intent = .configureJoin join config ∧
    config.kind ≠ .manyToMany ∧
    schema.configureJoin edit.ids join config = .ok (next, done) ∧
    ∃ s ∈ schema.seats, s.join.id = join ∧ ∃ peer, s.join.peer? = some peer ∧
      (join = .between s.table peer ∨ join = .between peer s.table) ∧
      config.target.table ≠ peer

/-- A join that is named after two tables is between these. -/
def NamesPairs (schema : Schema) : Prop :=
  ∀ s ∈ schema.seats, ∀ a b : TableId, PlainText a.text → PlainText b.text →
    s.join.id = .between a b → s.Between a b

/-- The schema is valid, its mirrors are in their places, and the ids of its tables are plain. -/
structure Tidy (schema : Schema) : Prop where
  valid : schema.Valid
  placed : schema.MirrorsPlaced
  plain : ∀ id ∈ schema.tables.map (·.id), PlainText id.text

variable {schema next : Schema} {ids : IdSupply} {intent : Intent} {effect : Effect} {s : Seat}

/-! ## Tables and seats -/

theorem seat_of_owned {o : OwnedJoin} (ho : o ∈ schema.owningJoins) : o.seat ∈ schema.seats :=
  seats_eq schema ▸ List.mem_map.mpr ⟨o, ho, rfl⟩

theorem owned_of_seat (hs : s ∈ schema.seats) : ∃ o ∈ schema.owningJoins, o.seat = s :=
  List.mem_map.mp (seats_eq schema ▸ hs)

/-- The two ends of a join are tables. -/
theorem Tidy.ends (h : schema.Tidy) (hs : s ∈ schema.seats) :
    s.table ∈ schema.tables.map (·.id) ∧
      ∀ peer, s.join.peer? = some peer → peer ∈ schema.tables.map (·.id) := by
  obtain ⟨o, ho, rfl⟩ := owned_of_seat hs
  refine ⟨List.mem_map.mpr ⟨o.holder, (mem_owningJoins ho).1, rfl⟩, fun peer hpeer => ?_⟩
  obtain ⟨target, ht, rfl⟩ := Option.map_eq_some_iff.mp hpeer
  obtain ⟨t, hfound, -⟩ := (h.valid.owners o ho).target target ht
  obtain ⟨hmem, hid⟩ := mem_of_table? hfound
  exact List.mem_map.mpr ⟨t, hmem, hid⟩

/-- A table is old, or it has the first id of the supply. -/
theorem ids_apply (hv : schema.Valid) (hcolumns : ∀ table, ¬ intent.GivesColumns table)
    (h : schema.apply ids intent = .ok (next, effect)) :
    next.tables.map (·.id) ⊆ ids.tableId 0 :: schema.tables.map (·.id) := by
  have happend : ∀ {base : Schema} {t : Table}, base.tables.map (·.id) = schema.tables.map (·.id) →
      t.id = ids.tableId 0 →
      (base.append t).tables.map (·.id) ⊆ ids.tableId 0 :: schema.tables.map (·.id) := by
    intro base t hbase hid
    rw [append, List.map_append, hbase, List.map_singleton, hid]
    exact List.append_subset.mpr ⟨List.subset_cons_self .., by simp⟩
  have hsame : next.tables.map (·.id) = schema.tables.map (·.id) →
      next.tables.map (·.id) ⊆ ids.tableId 0 :: schema.tables.map (·.id) :=
    fun he => he ▸ List.subset_cons_self ..
  cases intent with
  | createTable name keyType =>
      obtain ⟨⟨built, id⟩, hbuilt, hr⟩ := bind_eq_ok.mp h
      cases hr
      obtain ⟨-, rfl⟩ := createTable_eq_ok hbuilt
      exact happend rfl rfl
  | deleteTable table =>
      obtain ⟨built, hbuilt, hr⟩ := bind_eq_ok.mp h
      cases hr
      obtain ⟨-, rfl⟩ := deleteTable_eq_ok hbuilt
      intro id hid
      obtain ⟨t, ht, rfl⟩ := List.mem_map.mp hid
      rw [← ids_stripAll schema (schema.joinsTouching table)]
      exact List.mem_cons_of_mem _ (List.mem_map.mpr ⟨t, (List.mem_filter.mp ht).1, rfl⟩)
  | duplicateTable table =>
      obtain ⟨⟨built, id⟩, hbuilt, hr⟩ := bind_eq_ok.mp h
      cases hr
      obtain ⟨-, pattern, name, -, rfl⟩ := duplicateTable_eq_ok hbuilt
      exact happend rfl rfl
  | replaceColumns table columns => exact absurd ⟨columns, rfl⟩ (hcolumns table)
  | replaceTableFields table patch =>
      obtain ⟨built, hbuilt, hr⟩ := bind_eq_ok.mp h
      cases hr
      obtain ⟨-, rfl⟩ := replaceTableFields_eq_ok hbuilt
      exact hsame (ids_modifyTable fun _ => rfl)
  | addColumn table name =>
      obtain ⟨⟨built, id⟩, hbuilt, hr⟩ := bind_eq_ok.mp h
      cases hr
      obtain ⟨-, -, column, -, -, -, rfl⟩ := addColumn_eq_ok hbuilt
      exact hsame (ids_modifyTable fun _ => rfl)
  | deleteColumn table column =>
      obtain ⟨built, hbuilt, hr⟩ := bind_eq_ok.mp h
      cases hr
      obtain ⟨-, owner, target, -, -, rfl⟩ := deleteColumn_eq_ok hbuilt
      exact hsame (Eq.trans (ids_modifyTable fun _ => rfl) (ids_stripAll schema _))
  | connect source target column onDelete onUpdate =>
      obtain ⟨⟨built, id⟩, hbuilt, hr⟩ := bind_eq_ok.mp h
      cases hr
      rcases connect_eq_ok hbuilt with ⟨-, rfl⟩ | ⟨-, join, -, -, -, -, -, -, rfl⟩
      · exact hsame rfl
      · exact hsame (sameTables_declare schema join).ids
  | configureJoin join config =>
      obtain ⟨⟨built, done⟩, hbuilt, hr⟩ := bind_eq_ok.mp h
      cases hr
      by_cases hkind : config.kind = .manyToMany
      · obtain ⟨declaring, -, ⟨-, table, hj⟩ | ⟨hno, -⟩⟩ := configureJoin_eq_ok hbuilt
        · obtain ⟨-, a, b, junction, toA, toB, -, -, -, -, hlinks, rfl⟩ :=
            synthesizeJunction_eq_ok hj
          refine happend ?_ hlinks.id
          exact (sameTables_addJoins ..).ids.trans (ids_strip schema join)
        · exact absurd hkind hno
      · obtain ⟨H, k, R, r, -, hc, -⟩ := configureJoin_configures hv hkind hbuilt
        refine hsame ?_
        rw [hc.frame, List.map_map]
        rfl
  | deleteJoin join =>
      obtain ⟨built, hbuilt, hr⟩ := bind_eq_ok.mp h
      cases hr
      obtain ⟨-, rfl⟩ := deleteJoin_eq_ok hbuilt
      exact hsame (ids_strip schema join)

theorem Tidy.apply (h : schema.Tidy) (hplain : PlainText ids.stem)
    (hcolumns : ∀ table, ¬ intent.GivesColumns table)
    (ha : schema.apply ids intent = .ok (next, effect)) : next.Tidy where
  valid := valid_apply h.valid ha
  placed := by
    refine placed_apply h.valid h.placed ?_ ha
    cases intent with
    | replaceColumns table columns => exact absurd ⟨columns, rfl⟩ (hcolumns table)
    | _ => trivial
  plain := fun id hid => by
    rcases List.mem_cons.mp (ids_apply h.valid hcolumns ha hid) with rfl | hold
    · exact IdSupply.plain_text hplain 0
    · exact h.plain id hold

/-- Most edits leave no record but those that the schema has had. -/
theorem seats_subset_apply (hv : schema.Valid) (hno : ¬ intent.MakesRecords)
    (h : schema.apply ids intent = .ok (next, effect)) : next.seats ⊆ schema.seats := by
  have hsame : next.seats = schema.seats → next.seats ⊆ schema.seats :=
    fun he => he ▸ List.Subset.refl _
  cases intent with
  | createTable name keyType =>
      obtain ⟨⟨built, id⟩, hbuilt, hr⟩ := bind_eq_ok.mp h
      cases hr
      obtain ⟨-, rfl⟩ := createTable_eq_ok hbuilt
      exact hsame (seats_append_of_owners_nil rfl)
  | deleteTable table =>
      obtain ⟨built, hbuilt, hr⟩ := bind_eq_ok.mp h
      cases hr
      obtain ⟨-, rfl⟩ := deleteTable_eq_ok hbuilt
      intro s hs
      obtain ⟨t, ht, hst⟩ := mem_seats.mp hs
      exact (mem_seats_stripAll.mp (mem_seats.mpr ⟨t, (List.mem_filter.mp ht).1, hst⟩)).1
  | duplicateTable table =>
      obtain ⟨⟨built, id⟩, hbuilt, hr⟩ := bind_eq_ok.mp h
      cases hr
      obtain ⟨-, pattern, name, -, rfl⟩ := duplicateTable_eq_ok hbuilt
      exact hsame (seats_append_of_owners_nil (owners_copy pattern name ids))
  | replaceTableFields table patch =>
      obtain ⟨built, hbuilt, hr⟩ := bind_eq_ok.mp h
      cases hr
      obtain ⟨-, rfl⟩ := replaceTableFields_eq_ok hbuilt
      exact hsame (seats_modifyTable_eq fun _ _ _ => rfl)
  | addColumn table name =>
      obtain ⟨⟨built, id⟩, hbuilt, hr⟩ := bind_eq_ok.mp h
      cases hr
      obtain ⟨-, -, column, -, hnone, -, rfl⟩ := addColumn_eq_ok hbuilt
      refine hsame (seats_modifyTable_eq fun t _ _ => ?_)
      rw [Table.seats, Table.seats, List.filterMap_append,
        List.filterMap_cons_none (by rw [hnone]; rfl), List.filterMap_nil, List.append_nil]
      rfl
  | deleteColumn table column =>
      obtain ⟨built, hbuilt, hr⟩ := bind_eq_ok.mp h
      cases hr
      exact fun s hs => ((mem_seats_deleteColumn hv hbuilt).mp hs).1
  | deleteJoin join =>
      obtain ⟨built, hbuilt, hr⟩ := bind_eq_ok.mp h
      cases hr
      obtain ⟨-, rfl⟩ := deleteJoin_eq_ok hbuilt
      exact fun s hs => (mem_seats_strip.mp hs).1
  | connect => exact absurd trivial hno
  | configureJoin => exact absurd trivial hno
  | replaceColumns => exact absurd trivial hno

/-! ## Connecting two tables -/

/-- **Any two tables can be connected.** The record of the join is the one that the schema has under
its id, or else a new one between the two. -/
theorem Tidy.connects (h : schema.Tidy) {source target : Table} (hs : source ∈ schema.tables)
    (ht : target ∈ schema.tables) {column : Option ColumnId} (onDelete onUpdate : Action)
    (hc : ∀ c, column = some c → (target.column? c).isSome = true) :
    ∃ next o, schema.Connects source.id target.id column onDelete onUpdate next o ∧
      (o ∈ schema.owningJoins ∨ o.seat.Between source.id target.id) := by
  have hsource := table?_of_mem h.valid.ids hs
  have htarget := table?_of_mem h.valid.ids ht
  cases hcontains : schema.containsJoin (.between source.id target.id) with
  | true =>
      obtain ⟨o, ho, hid⟩ := List.any_eq_true.mp hcontains
      rw [decide_eq_true_eq] at hid
      exact ⟨schema, o, ⟨connect_of_contained hsource htarget hcontains onDelete onUpdate,
        hid ▸ filter_key h.valid.ownerIds ho, fun _ => rfl⟩, Or.inl ho⟩
  | false =>
      let join := Join.declared source.id target.id (column.or (target.keyColumn?.map (·.id)))
        onDelete onUpdate
      obtain ⟨hnv, hmade⟩ := connect_declares h.valid hs ht hc hcontains onDelete onUpdate
        (show join = _ from rfl)
      have hseat : ⟨source.id, none, join⟩ ∈ (schema.declare join).seats :=
        (mem_seats_declare h.valid.ids rfl (hsource ▸ rfl)).mpr (Or.inr rfl)
      obtain ⟨o, ho, hoseat⟩ := owned_of_seat hseat
      have hid : o.join.id = .between source.id target.id := congrArg (·.join.id) hoseat
      refine ⟨schema.declare join, o, ⟨hmade, hid ▸ filter_key hnv.ownerIds ho, fun h => ?_⟩,
        Or.inr (hoseat ▸ Or.inl ⟨rfl, rfl⟩)⟩
      rw [hcontains] at h
      cases h

/-- Connecting gives a join of the two tables, whatever they are, just if every join that is named
after two tables of the schema is between these. -/
theorem Tidy.connectsAll_iff (h : schema.Tidy) :
    schema.ConnectsAll (fun o a b => o.seat.Between a b) ↔
      ∀ s ∈ schema.seats, ∀ a ∈ schema.tables, ∀ b ∈ schema.tables,
        s.join.id = .between a.id b.id → s.Between a.id b.id := by
  constructor
  · intro hall s hs a ha b hb hid
    obtain ⟨o, ho, rfl⟩ := owned_of_seat hs
    have hid : o.join.id = .between a.id b.id := hid
    obtain ⟨next, o', hconnects, hbetween⟩ :=
      hall a ha b hb none .cascade .cascade fun c hc => by cases hc
    -- the join is there, so it is the one that is given
    have hcontains : schema.containsJoin (.between a.id b.id) = true :=
      List.any_eq_true.mpr ⟨o, ho, by simpa using hid⟩
    have howner := hconnects.owner
    rw [hconnects.same hcontains, ← hid] at howner
    rw [filter_key h.valid.ownerIds ho, List.singleton_inj] at howner
    exact howner ▸ hbetween
  · intro hall source hs target ht column onDelete onUpdate hc
    obtain ⟨next, o, hconnects, ho⟩ := h.connects hs ht onDelete onUpdate hc
    refine ⟨next, o, hconnects, ho.elim (fun ho => ?_) id⟩
    have hmem : o ∈ next.owningJoins.filter (·.join.id = .between source.id target.id) :=
      hconnects.owner ▸ List.mem_singleton_self o
    have hid : o.join.id = .between source.id target.id := by simpa using (List.mem_filter.mp hmem).2
    exact hall o.seat (seat_of_owned ho) source hs target ht hid

theorem NamesPairs.connectsAll (h : schema.Tidy) (hn : schema.NamesPairs) :
    schema.ConnectsAll fun o a b => o.seat.Between a b :=
  h.connectsAll_iff.mpr fun s hs a ha b hb => hn s hs a.id b.id
    (h.plain _ (List.mem_map.mpr ⟨a, ha, rfl⟩)) (h.plain _ (List.mem_map.mpr ⟨b, hb, rfl⟩))

/-! ## What edits do to joins that are named after pairs -/

/-- A join that is made between two tables is named after these. -/
theorem between_of_named {a b : TableId} (ha : PlainText s.table.text) {peer : TableId}
    (hp : PlainText peer.text) (hpeer : s.join.peer? = some peer) {n : Nat}
    (hid : s.join.id = .nth s.table peer n) (hpa : PlainText a.text) (hpb : PlainText b.text)
    (h : s.join.id = .between a b) : s.Between a b := by
  have he : JoinId.nth s.table peer n = .nth a b 0 := hid.symm.trans h
  obtain ⟨rfl, rfl, -⟩ := JoinId.nth_plain_inj ha hp hpa hpb he
  exact Or.inl ⟨rfl, hpeer⟩

theorem NamesPairs.connect (h : schema.Tidy) (hn : schema.NamesPairs) {source target : TableId}
    {column : Option ColumnId} {onDelete onUpdate : Action} {id : JoinId}
    (hc : schema.connect source target column onDelete onUpdate = .ok (next, id)) :
    next.NamesPairs := by
  rcases connect_eq_ok hc with ⟨-, rfl⟩ | ⟨-, join, referenced, hid, rfl, ht, hs, hp, rfl⟩
  · exact hn
  intro s hmem a b ha hb he
  rcases (mem_seats_declare h.valid.ids ht hs).mp hmem with hold | rfl
  · exact hn s hold a b ha hb he
  · obtain ⟨t, ht'⟩ := Option.isSome_iff_exists.mp hs
    obtain ⟨u, hu⟩ := Option.isSome_iff_exists.mp hp
    have hplain : ∀ {id : TableId} {t : Table}, schema.table? id = some t → PlainText id.text :=
      fun hfound => h.plain _ (List.mem_map.mpr ⟨_, mem_of_table? hfound⟩)
    exact between_of_named (hplain ht') (hplain hu) (by rw [Join.peer?, ht]; rfl) (n := 0) hid ha
      hb he

theorem NamesPairs.junction (h : schema.Tidy) (hn : schema.NamesPairs)
    (hplain : PlainText ids.stem) {join : JoinId} {declaring table : TableId} {config : JoinConfig}
    (hj : schema.synthesizeJunction ids join declaring config = .ok (next, table)) :
    next.NamesPairs := by
  obtain ⟨hnv, a, b, junction, toA, toB, -, -, ha, hb, hlinks, hnext⟩ := synthesizeJunction_eq_ok hj
  have hnew := junction_new hnv hnext
  have hside : ∀ {id : TableId} {t : Table}, schema.table? id = some t → PlainText id.text :=
    fun hfound => h.plain _ (List.mem_map.mpr ⟨_, mem_of_table? hfound⟩)
  intro s hs x y hx hy he
  rw [hnext, seats_append, List.mem_append, seats_addJoin_mirror
    (hlinks.sourceB ▸ hnew b (mem_of_table? hb).1), seats_addJoin_mirror
    (hlinks.sourceA ▸ hnew a (mem_of_table? ha).1), mem_seats_strip] at hs
  rcases hs with ⟨hold, -⟩ | hmade
  · exact hn s hold x y hx hy he
  · have htable : s.table = junction.id := (Table.mem_seats.mp hmade).1
    have hjunction : PlainText s.table.text :=
      htable ▸ hlinks.id ▸ IdSupply.plain_text hplain 0
    have hjoin : s.join ∈ junction.owners :=
      junction.owners_eq_seats ▸ List.mem_map.mpr ⟨s, hmade, rfl⟩
    rw [hlinks.owners, List.mem_cons, List.mem_singleton] at hjoin
    obtain ⟨keyA, htA⟩ := hlinks.targetA
    obtain ⟨keyB, htB⟩ := hlinks.targetB
    rcases hjoin with hjoin | hjoin
    · exact between_of_named hjunction (hside ha) (by rw [hjoin, Join.peer?, htA]; rfl)
        (by rw [hjoin, htable]; exact hlinks.idA) hx hy he
    · exact between_of_named hjunction (hside hb) (by rw [hjoin, Join.peer?, htB]; rfl)
        (by rw [hjoin, htable]; exact hlinks.idB) hx hy he

section

variable {join : JoinId} {config : JoinConfig} {H R : Table} {k r : Column}

/-- A configured join has the ends that it had, with the chosen table in the place of the one that it
referred to. They may be swapped. -/
theorem Configures.ends (h : schema.Configures next join config H k R r) (hv : schema.Valid)
    (hdeclared : (schema.declaring? join).isSome = true) (hs : s ∈ schema.seats)
    (hid : s.join.id = join) : H.id = s.table ∧ R.id = config.target.table ∨
      H.id = config.target.table ∧ R.id = s.table := by
  obtain ⟨declaring, hdeclaring⟩ := Option.isSome_iff_exists.mp hdeclared
  obtain ⟨o, ho, hoid, hholder⟩ := seat_of_declaring hdeclaring
  have hsame : o.seat = s := seat_unique hv (seat_of_owned ho) hs (hoid.trans hid.symm)
  have htable : s.table = declaring := by rw [← hsame]; exact hholder
  rcases declaring?_eq_some hdeclaring with ⟨t, c, hf, ht⟩ | ⟨-, t, pending, hp, ht⟩
  · obtain ⟨hH, -, hR, -⟩ := h.kept t c hf
    exact Or.inl ⟨hH.trans (ht.trans htable.symm), hR⟩
  · have hends := (h.made t pending hp).1
    rw [ht, ← htable] at hends
    unfold JoinConfig.ends at hends
    split at hends
    · exact Or.inr ⟨(Prod.mk.inj hends).1, (Prod.mk.inj hends).2⟩
    · exact Or.inl ⟨(Prod.mk.inj hends).1, (Prod.mk.inj hends).2⟩

/-- The seat of a configured join is new, and those of the other joins stay. -/
theorem Configures.mem_seats (hc : schema.Configures next join config H k R r) (hv : schema.Valid)
    (hkind : config.kind ≠ .manyToMany) {done : Configured}
    (h : schema.configureJoin ids join config = .ok (next, done)) :
    s ∈ next.seats ↔ s ∈ schema.seats ∧ s.join.id ≠ join ∨
      s = ⟨H.id, some k.id, config.record join H.id R.id r.id⟩ := by
  obtain ⟨-, -, ⟨hmany, -⟩ | ⟨-, -, record, peer, key, dataType, hid, ht, -, hs, hfk, hnext⟩⟩ :=
    configureJoin_eq_ok h
  · exact absurd hmany hkind
  subst hid
  obtain ⟨column, hseats⟩ := mem_seats_configured hv ht hs hfk hnext
  -- the seat that the join has now is the only one of its id
  have hmine := seat_of_owned hc.shape.mem_owningJoins
  rcases (hseats _).mp hmine with ⟨-, hne⟩ | hsame
  · exact absurd rfl hne
  · rw [hseats, ← hsame]
    rfl

end

/-- Where a pair has one end fixed, it tells the other end. -/
theorem other_end_unique {x t p H R : TableId} (h : H = x ∧ R = t ∨ H = t ∧ R = x)
    (h' : H = x ∧ R = p ∨ H = p ∧ R = x) : t = p := by
  grind

/-- **A configured join goes on to be between the tables that it is named after**, unless it is moved
away from them. -/
theorem NamesPairs.configured (h : schema.Tidy) (hn : schema.NamesPairs) {join : JoinId}
    {config : JoinConfig} (hkind : config.kind ≠ .manyToMany) {done : Configured}
    (hdone : schema.configureJoin ids join config = .ok (next, done))
    (hstays : ¬ schema.Moves ⟨ids, .configureJoin join config⟩) : next.NamesPairs := by
  obtain ⟨H, k, R, r, -, hc, -, hdeclared, -⟩ := configureJoin_configures h.valid hkind hdone
  obtain ⟨declaring, hdeclaring⟩ := Option.isSome_iff_exists.mp hdeclared
  obtain ⟨o, ho, hoid, -⟩ := seat_of_declaring hdeclaring
  intro s hs a b ha hb he
  rcases (hc.mem_seats h.valid hkind hdone).mp hs with ⟨hold, -⟩ | rfl
  · exact hn s hold a b ha hb he
  have hos := seat_of_owned ho
  have hends := hc.ends h.valid hdeclared hos hoid
  have hkept : ∀ peer, o.seat.join.peer? = some peer →
      (join = .between o.seat.table peer ∨ join = .between peer o.seat.table) →
      config.target.table = peer := fun peer hpeer hnamed => not_not.mp fun hne =>
    hstays ⟨join, config, next, done, rfl, hkind, hdone, o.seat, hos, hoid, peer, hpeer, hnamed, hne⟩
  have he : join = .between a b := he
  -- the join was between the two, so it refers to the one that does not hold it
  rcases hn o.seat hos a b ha hb (hoid.trans he) with ⟨rfl, hpeer⟩ | ⟨rfl, hpeer⟩
  · rw [hkept b hpeer (Or.inl he)] at hends
    exact hends.imp (And.imp_right (congrArg some)) (And.imp_right (congrArg some))
  · rw [hkept a hpeer (Or.inr he)] at hends
    exact (hends.imp (And.imp_right (congrArg some)) (And.imp_right (congrArg some))).symm

/-! ## Edits and runs -/

variable {edit : Edit}

theorem Tidy.edited (h : schema.Tidy) (hedit : edit.Ordinary) : (schema.edited edit).Tidy := by
  unfold Schema.edited
  split
  · rename_i next effect happlied
    exact h.apply hedit.plain hedit.columns happlied
  · exact h

theorem edited_of_configureJoin {join : JoinId} {config : JoinConfig} {done : Configured}
    (h : schema.configureJoin ids join config = .ok (next, done)) :
    schema.edited ⟨ids, .configureJoin join config⟩ = next := by
  simp only [Schema.edited, apply, h, bind, Except.bind, pure, Except.pure]

/-- **An edit leaves joins between the tables that they are named after**, unless it moves one. -/
theorem NamesPairs.edited (h : schema.Tidy) (hn : schema.NamesPairs) (hedit : edit.Ordinary)
    (hstays : ¬ schema.Moves edit) : (schema.edited edit).NamesPairs := by
  obtain ⟨ids, intent⟩ := edit
  unfold Schema.edited
  cases happlied : schema.apply ids intent with
  | error error => exact hn
  | ok built =>
      obtain ⟨next, effect⟩ := built
      cases intent with
      | connect source target column onDelete onUpdate =>
          obtain ⟨⟨built, id⟩, hbuilt, hr⟩ := bind_eq_ok.mp happlied
          cases hr
          exact hn.connect h hbuilt
      | configureJoin join config =>
          obtain ⟨⟨built, done⟩, hbuilt, hr⟩ := bind_eq_ok.mp happlied
          cases hr
          by_cases hkind : config.kind = .manyToMany
          · obtain ⟨declaring, -, ⟨-, table, hj⟩ | ⟨hno, -⟩⟩ := configureJoin_eq_ok hbuilt
            · exact hn.junction h hedit.plain hj
            · exact absurd hkind hno
          · exact hn.configured h hkind hbuilt hstays
      | replaceColumns table columns => exact absurd ⟨columns, rfl⟩ (hedit.columns table)
      | _ =>
          have hsubset := seats_subset_apply h.valid (by exact id) happlied
          exact fun s hs => hn s (hsubset hs)

/-- **A join that is moved away is given for the pair that it is named after**, which it is not
between any more. -/
theorem Tidy.not_moves (h : schema.Tidy) (hedit : edit.Ordinary)
    (hall : (schema.edited edit).ConnectsAll fun o a b => o.seat.Between a b) :
    ¬ schema.Moves edit := by
  have hnext := h.edited hedit
  obtain ⟨ids, intent⟩ := edit
  rintro ⟨join, config, next, done, rfl, hkind, hdone, s, hs, hid, peer, hpeer, hnamed, hne⟩
  rw [edited_of_configureJoin hdone] at hall hnext
  obtain ⟨H, k, R, r, -, hc, -, hdeclared, -⟩ := configureJoin_configures h.valid hkind hdone
  obtain ⟨htable, hpeers⟩ := h.ends hs
  -- the two tables are there as before
  have hids : next.tables.map (·.id) = schema.tables.map (·.id) := by
    rw [hc.frame, List.map_map]
    rfl
  obtain ⟨t, ht, htid⟩ := List.mem_map.mp (hids ▸ htable)
  obtain ⟨u, hu, huid⟩ := List.mem_map.mp (hids ▸ hpeers peer hpeer)
  have hbetween : H.id = s.table ∧ R.id = peer ∨ H.id = peer ∧ R.id = s.table := by
    have hnew := hnext.connectsAll_iff.mp hall _ ((hc.mem_seats h.valid hkind hdone).mpr (Or.inr rfl))
    have htold : Seat.Between ⟨H.id, some k.id, config.record join H.id R.id r.id⟩ s.table peer :=
      hnamed.elim (fun he => htid ▸ huid ▸ hnew t ht u hu (htid.symm ▸ huid.symm ▸ he))
        fun he => (htid ▸ huid ▸ hnew u hu t ht (htid.symm ▸ huid.symm ▸ he)).symm
    exact htold.imp (And.imp_right Option.some.inj) (And.imp_right Option.some.inj)
  exact hne (other_end_unique (hc.ends h.valid hdeclared hs hid) hbetween)

theorem tidy_empty : Schema.empty.Tidy :=
  ⟨valid_empty, placed_empty, fun _ h => absurd h List.not_mem_nil⟩

theorem namesPairs_empty : Schema.empty.NamesPairs := fun _ h => absurd h List.not_mem_nil

theorem Tidy.editedAll {edits : List Edit} (h : schema.Tidy) (hedits : ∀ edit ∈ edits, edit.Ordinary) :
    (schema.editedAll edits).Tidy := by
  induction edits generalizing schema with
  | nil => exact h
  | cons first rest ih =>
      rw [List.forall_mem_cons] at hedits
      exact ih (h.edited hedits.1) hedits.2

/-- **Connecting gives a join of the two tables for as long as no join has been moved.** Whatever has
been done from the empty schema on, any two tables can be connected, and the join that is given has
one owning record and is left as it is if it was there. The record is between the two tables, at all
moments and for all tables, just if no join has been configured to refer to another table than the
one by which it is named. -/
theorem connects_run_iff {edits : List Edit} (hedits : ∀ edit ∈ edits, edit.Ordinary) :
    (∀ n, (empty.editedAll (edits.take n)).ConnectsAll fun _ _ _ => True) ∧
    ((∀ n, (empty.editedAll (edits.take n)).ConnectsAll fun o a b => o.seat.Between a b) ↔
      ∀ n edit, edits[n]? = some edit → ¬ (empty.editedAll (edits.take n)).Moves edit) := by
  refine ⟨fun n source hs target ht column onDelete onUpdate hc => ?_, ?_⟩
  · have htidy : (empty.editedAll (edits.take n)).Tidy :=
      tidy_empty.editedAll fun edit he => hedits edit (List.mem_of_mem_take he)
    obtain ⟨next, o, hconnects, -⟩ := htidy.connects hs ht onDelete onUpdate hc
    exact ⟨next, o, hconnects, trivial⟩
  · exact run_good_iff hedits
      (fun (s : Schema) (hs : s.Tidy ∧ s.NamesPairs) => hs.2.connectsAll hs.1)
      (fun s edit he hs => hs.1.not_moves he)
      (fun s edit he hs hstays => ⟨hs.1.edited he, hs.2.edited hs.1 he hstays⟩)
      ⟨tidy_empty, namesPairs_empty⟩

/-- The tables of users, posts and tags that `usersToPosts` makes. -/
def madeUsers : TableId := ⟨"u000000000000"⟩

@[inherit_doc madeUsers]
def madePosts : TableId := ⟨"p000000000000"⟩

@[inherit_doc madeUsers]
def madeTags : TableId := ⟨"t000000000000"⟩

/-- Users are connected to posts, and the join is configured to refer to a table. -/
def usersToPosts (target : TableId) : List Edit :=
  [⟨⟨"u", 0⟩, .createTable "User" .uuid⟩, ⟨⟨"p", 0⟩, .createTable "Post" .uuid⟩,
    ⟨⟨"t", 0⟩, .createTable "Tag" .uuid⟩,
    ⟨⟨"j", 0⟩, .connect madeUsers madePosts none .cascade .cascade⟩,
    ⟨⟨"k", 0⟩, .configureJoin (.between madeUsers madePosts) (configTo target .manyToOne)⟩]

theorem ordinary_usersToPosts (target : TableId) : ∀ edit ∈ usersToPosts target, edit.Ordinary := by
  have hcolumns : ∀ edit ∈ usersToPosts target, ∀ table, ¬ edit.intent.GivesColumns table := by
    simp [usersToPosts, Intent.GivesColumns]
  have hplain : ∀ stem ∈ (usersToPosts target).map (·.ids.stem), PlainText stem := by
    show ∀ stem ∈ ["u", "p", "t", "j", "k"], PlainText stem
    decide +kernel
  exact fun edit he => ⟨hplain _ (List.mem_map.mpr ⟨edit, he, rfl⟩), hcolumns edit he⟩

/-- Users that are to have one of the posts can be connected with these at all moments. -/
theorem usersToPosts_connects :
    (∀ edit ∈ usersToPosts madePosts, edit.Ordinary) ∧
      ∀ n, (empty.editedAll ((usersToPosts madePosts).take n)).ConnectsAll
        fun o a b => o.seat.Between a b := by
  have hedits := ordinary_usersToPosts madePosts
  refine ⟨hedits, (connects_run_iff hedits).2.mpr ?_⟩
  have hseats : ∀ s ∈ (empty.editedAll ((usersToPosts madePosts).take 4)).seats,
      s.join.peer? = some madePosts := by decide +kernel
  rintro n edit hn ⟨join, config, next, done, hintent, -, -, s, hs, -, peer, hpeer, -, hne⟩
  match n with
  | 0 | 1 | 2 | 3 => cases hn; cases hintent
  | 4 =>
      cases hn
      cases hintent
      exact hne (Option.some.inj ((hseats s hs).symm.trans hpeer))
  | n + 5 => cases hn

/-- Where they are to have a tag instead, connecting users and posts gives the join of users and
tags. -/
theorem usersToTags_connects_tags :
    (∀ edit ∈ usersToPosts madeTags, edit.Ordinary) ∧ ∃ next o,
      (empty.editedAll (usersToPosts madeTags)).Connects madeUsers madePosts none .cascade .cascade
        next o ∧
      o.seat.table = madeUsers ∧ o.join.peer? = some madeTags ∧
      ¬ o.seat.Between madeUsers madePosts := by
  let reached := empty.editedAll (usersToPosts madeTags)
  have hmade : (reached.connect madeUsers madePosts none .cascade .cascade).toOption =
      some (reached, .between madeUsers madePosts) := by decide +kernel
  have howners : (reached.owningJoins.filter (·.join.id = .between madeUsers madePosts)).map
      (fun o => (o.seat.table, o.join.peer?)) = [(madeUsers, some madeTags)] := by decide +kernel
  obtain ⟨o, howner, hends⟩ := List.map_eq_singleton_iff.mp howners
  obtain ⟨htable, hpeer⟩ := Prod.mk.inj hends
  refine ⟨ordinary_usersToPosts madeTags, reached, o,
    ⟨ok_of_toOption hmade, howner, fun _ => rfl⟩, htable, hpeer, ?_⟩
  rintro (⟨-, hposts⟩ | ⟨hposts, -⟩)
  · exact absurd (hpeer.symm.trans hposts) (by decide)
  · exact absurd (htable.symm.trans hposts) (by decide)

end Schema

end ErModel
