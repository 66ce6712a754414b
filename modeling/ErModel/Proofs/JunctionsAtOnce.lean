import ErModel.Proofs.Blocks
import ErModel.Proofs.Complete
import ErModel.Proofs.Configured
import ErModel.Proofs.Content
import ErModel.Proofs.EdgeSet
import ErModel.Proofs.Junctions
import ErModel.Proofs.Reconciling
import ErModel.Proofs.Renumbering

/-!
# Junction tables all at once

The junction tables of a document are made one after another, each in a schema that has those before
it. But none of them is in the way of another. A join that waits is pending, so no column goes when
a junction takes its place, and no join that waits refers to a junction. So what a join gets can be
told from the schema in which the first of them is made, and all of them can be put there at once;
what they share is the supply of ids, and the names that are taken.
-/

namespace ErModel

/-- The table without its records of some joins. -/
def Table.clearAll (table : Table) (joins : List JoinId) : Table :=
  { table with joins := table.joins.filter (·.id ∉ joins) }

/-- The mirrors of a junction table, each beside the side that holds it. -/
def sideMirrors (made : Table × Join × Join) : List (TableId × Join) :=
  [made.2.1, made.2.2].filterMap fun join =>
    join.target.map fun target => (target.table, join.mirror)

/-- The mirrors of a junction table have it as their source. -/
theorem Table.Links.source_of_sideMirrors {junction a b : Table} {ids : IdSupply} {toA toB : Join}
    (h : junction.Links ids a b toA toB) {side : TableId × Join}
    (hside : side ∈ sideMirrors (junction, toA, toB)) : side.2.source = junction.id := by
  obtain ⟨join, hjoin, he⟩ := List.mem_filterMap.mp hside
  obtain ⟨target, -, rfl⟩ := Option.map_eq_some_iff.mp he
  rw [Join.mirror_source]
  rcases List.mem_pair.mp hjoin with rfl | rfl
  · exact h.sourceA
  · exact h.sourceB

namespace Schema

/-- The tables as they are without records of pending joins and of mirrors. -/
def bareTables (schema : Schema) : List Table := schema.tables.map (·.withoutJoins)

/-- Pending joins are replaced by junction tables, all of them at once. -/
def withJunctions (schema : Schema) (joins : List JoinId) (made : List (Table × Join × Join)) :
    Schema :=
  ⟨((schema.mapTables (·.clearAll joins)).holding (made.flatMap sideMirrors)).tables ++
    made.map (·.1)⟩

/-- The junction table that a join gets, with ids of the supply from a place on. -/
def Makes (schema : Schema) (ids : IdSupply) (waiting : Source.Deferred × Nat)
    (made : Table × Join × Join) : Prop :=
  ∃ a ∈ schema.bareTables, ∃ b ∈ schema.bareTables, ∃ aKey bKey,
    (∃ o ∈ schema.owners, o.2.id = waiting.1.join ∧ o.1 = a.id) ∧
    b.id = waiting.1.config.target.table ∧
    (∀ c, waiting.1.config.target.column = some c → (b.column? c).isSome = true) ∧
    a.junctionKey? waiting.1.config.joinColumn = some aKey ∧
    b.junctionKey? waiting.1.config.inverseColumn = some bKey ∧
    made = junctionBetween (ids.skip waiting.2) waiting.1.config a b aKey bKey

/-- The joins are pending, and what is needed to make their junction tables one by one is there. The
schema has ids among the first `n` of the supply. -/
structure AwaitsJunctions (schema : Schema) (ids : IdSupply) (n : Nat)
    (deferred : List Source.Deferred) : Prop where
  compiled : schema.Compiled ids n
  kinds : ∀ d ∈ deferred, d.config.kind = .manyToMany
  joins : (deferred.map (·.join)).Nodup
  waits : ∀ d ∈ deferred, d.join ∈ schema.pendingJoins.map (·.id)
  targets : ∀ d ∈ deferred, d.config.target.table ∈ schema.tables.map (·.id)
  /-- Joins are declared by the tables of the supply. -/
  declared : ∀ o ∈ schema.owners, ∃ a < n, ∃ table m, o.2.id = .nth (ids.tableId a) table m

variable {schema next : Schema} {ids : IdSupply} {n : Nat}

/-! ## Joins that wait -/

/-- A pending join has one record, and no column carries it. -/
theorem owner_of_pending (hv : schema.Valid) {join : JoinId}
    (hj : join ∈ schema.pendingJoins.map (·.id)) :
    (∃ o ∈ schema.owners, o.2.id = join) ∧
      ∀ t ∈ schema.tables, ∀ c ∈ t.columns, c.carries join = false := by
  obtain ⟨record, hrecord, rfl⟩ := List.mem_map.mp hj
  obtain ⟨owned, howned, rfl⟩ := List.mem_map.mp hrecord
  obtain ⟨howned, hpending⟩ := List.mem_filter.mp howned
  refine ⟨⟨_, owners_eq schema ▸ List.mem_map.mpr ⟨owned, howned, rfl⟩, rfl⟩, fun t ht c hc => ?_⟩
  exact uncarried_of_pending hv howned (by simpa [OwnedJoin.isConfigured] using hpending) ht hc

theorem declaring?_isSome {o : TableId × Join} (ho : o ∈ schema.owners) :
    (schema.declaring? o.2.id).isSome = true := by
  obtain ⟨t, ht, -, hj⟩ := mem_owners.mp ho
  rw [declaring?, Option.isSome_or, Option.isSome_map, Option.isSome_map, Bool.or_eq_true,
    foreignKey?, pending?, List.findSome?_isSome_iff, List.findSome?_isSome_iff]
  rcases List.mem_append.mp hj with hj | hj
  · obtain ⟨c, hc, hf⟩ := mem_foreignKeys.mp hj
    refine Or.inl ⟨t, ht, ?_⟩
    rw [Option.isSome_map, List.find?_isSome]
    exact ⟨c, hc, by simp [Column.carries, hf]⟩
  · obtain ⟨hmem, hs⟩ := List.mem_filter.mp hj
    refine Or.inr ⟨t, ht, ?_⟩
    rw [Option.isSome_map, List.find?_isSome]
    exact ⟨o.2, hmem, by simpa using hs⟩

/-- The table that declares a join is the one that holds its record. -/
theorem declaring?_of_owner (hv : schema.Valid) {o : TableId × Join} (ho : o ∈ schema.owners) :
    schema.declaring? o.2.id = some o.1 := by
  obtain ⟨declaring, hd⟩ := Option.isSome_iff_exists.mp (declaring?_isSome ho)
  obtain ⟨seat, hseat, hid, rfl⟩ := seat_of_declaring hd
  have hmem : (seat.holder.id, seat.join) ∈ schema.owners :=
    owners_eq schema ▸ List.mem_map.mpr ⟨seat, hseat, rfl⟩
  rw [hd, ← eq_of_key_eq (ownerIds_nodup hv) hmem ho hid]

theorem ids_bareTables (schema : Schema) :
    schema.bareTables.map (·.id) = schema.tables.map (·.id) := by
  rw [bareTables, List.map_map]
  rfl

namespace AwaitsJunctions

variable {deferred : List Source.Deferred} {d : Source.Deferred} {rest : List Source.Deferred}

/-- The ids behind those of the schema are of use for a junction table. -/
theorem unusedIn (h : schema.AwaitsJunctions ids n deferred) : (ids.skip n).UnusedIn schema := by
  refine ⟨fun k hmem => ?_, fun o ho table m he => ?_⟩
  · obtain ⟨i, hi, he⟩ := List.mem_map.mp (h.compiled.drawn.subset hmem)
    have := ids.text_injective (he.trans (ids.text_skip n k))
    have := List.mem_range.mp hi
    omega
  · have hmem : (o.holder.id, o.join) ∈ schema.owners :=
      owners_eq schema ▸ List.mem_map.mpr ⟨o, ho, rfl⟩
    obtain ⟨a, ha, table', m', hid⟩ := h.declared _ hmem
    rw [IdSupply.tableId_skip] at he
    have := JoinId.nth_source_inj (hid.symm.trans he)
    omega

/-- No join that waits is declared by a junction table. -/
theorem join_ne (h : schema.AwaitsJunctions ids n deferred) (hd : d ∈ deferred) (table : TableId)
    (m : Nat) : d.join ≠ .nth ((ids.skip n).tableId 0) table m := by
  obtain ⟨⟨o, ho, hjoin⟩, -⟩ := owner_of_pending h.compiled.valid (h.waits d hd)
  obtain ⟨owned, howned, rfl⟩ := List.mem_map.mp (owners_eq schema ▸ ho)
  exact hjoin ▸ h.unusedIn.joins owned howned table m

end AwaitsJunctions

/-! ## One junction table -/

/-- A junction table is new, and its mirrors are on tables of the schema. -/
theorem Makes.shape {waiting : Source.Deferred × Nat} {made : Table × Join × Join}
    (h : schema.Makes ids waiting made) :
    made.1.id = (ids.skip waiting.2).tableId 0 ∧ made.1.joins = [] ∧
      ∀ m ∈ sideMirrors made, m.1 ∈ schema.tables.map (·.id) ∧
        ∃ table k, m.2.id = .nth ((ids.skip waiting.2).tableId 0) table k := by
  obtain ⟨a, ha, b, hb, aKey, bKey, -, -, -, -, -, rfl⟩ := h
  have hids : ∀ {t : Table}, t ∈ schema.bareTables → t.id ∈ schema.tables.map (·.id) := fun ht =>
    ids_bareTables schema ▸ List.mem_map.mpr ⟨_, ht, rfl⟩
  refine ⟨rfl, rfl, ?_⟩
  show ∀ m ∈ [(a.id, _), (b.id, _)], _
  rw [List.forall_mem_cons, List.forall_mem_singleton]
  exact ⟨⟨hids ha, a.id, 0, rfl⟩, hids hb, b.id, if a.id = b.id then 1 else 0, rfl⟩

/-- What is stripped of a join that no column carries are its records. -/
theorem strip_of_uncarried {join : JoinId}
    (h : ∀ t ∈ schema.tables, ∀ c ∈ t.columns, c.carries join = false) :
    schema.strip join = schema.mapTables (·.clearAll [join]) := by
  refine congrArg Schema.mk (List.map_congr_left fun t ht => ?_)
  have hcolumns := Table.columns_strip_of_uncarried (h t ht)
  have hjoins : t.joins.filter (·.id ≠ join) = t.joins.filter (·.id ∉ [join]) :=
    List.filter_congr fun j _ => by simp
  show { t with joins := t.joins.filter (·.id ≠ join), columns := (t.strip join).columns } = _
  rw [hcolumns, hjoins]
  rfl

theorem withJunction_eq (hids : (schema.tables.map (·.id)).Nodup) {join : JoinId}
    (h : ∀ t ∈ schema.tables, ∀ c ∈ t.columns, c.carries join = false) (ids : IdSupply)
    (config : JoinConfig) (a b : Table) (aKey bKey : Column) :
    schema.withJunction join a b (junctionBetween ids config a b aKey bKey) =
      schema.withJunctions [join] [junctionBetween ids config a b aKey bKey] := by
  let made := junctionBetween ids config a b aKey bKey
  have hids' : ((schema.mapTables (·.clearAll [join])).tables.map (·.id)).Nodup := by
    rw [mapTables, List.map_map]
    exact hids
  have hheld := foldl_addJoin hids' [(a.id, made.2.1.mirror), (b.id, made.2.2.mirror)]
  rw [withJunction, strip_of_uncarried h]
  exact congrArg (fun base : Schema => base.append made.1) hheld

/-- What a join gets, told by the tables themselves. -/
theorem makes_iff_table? (hv : schema.Valid) {o : TableId × Join} (ho : o ∈ schema.owners)
    {waiting : Source.Deferred × Nat} (hjoin : o.2.id = waiting.1.join)
    {made : Table × Join × Join} :
    schema.Makes ids waiting made ↔ ∃ a b aKey bKey, schema.table? o.1 = some a ∧
      schema.table? waiting.1.config.target.table = some b ∧
      (∀ c, waiting.1.config.target.column = some c → (b.column? c).isSome = true) ∧
      a.junctionKey? waiting.1.config.joinColumn = some aKey ∧
      b.junctionKey? waiting.1.config.inverseColumn = some bKey ∧
      made = junctionBetween (ids.skip waiting.2) waiting.1.config a b aKey bKey := by
  constructor
  · rintro ⟨_, ha, _, hb, aKey, bKey, ⟨o', ho', hjoin', haid⟩, hbid, hcolumn, haKey, hbKey, rfl⟩
    obtain ⟨a, hamem, rfl⟩ := List.mem_map.mp ha
    obtain ⟨b, hbmem, rfl⟩ := List.mem_map.mp hb
    obtain rfl : o' = o := eq_of_key_eq (ownerIds_nodup hv) ho' ho (hjoin'.trans hjoin.symm)
    have ha? : schema.table? a.id = some a := table?_of_mem hv.ids hamem
    have hb? : schema.table? b.id = some b := table?_of_mem hv.ids hbmem
    exact ⟨a, b, aKey, bKey, haid ▸ ha?, hbid ▸ hb?, hcolumn, haKey, hbKey, rfl⟩
  · rintro ⟨a, b, aKey, bKey, ha, hb, hcolumn, haKey, hbKey, rfl⟩
    obtain ⟨hamem, haid⟩ := mem_of_table? ha
    obtain ⟨hbmem, hbid⟩ := mem_of_table? hb
    exact ⟨a.withoutJoins, List.mem_map.mpr ⟨a, hamem, rfl⟩, b.withoutJoins,
      List.mem_map.mpr ⟨b, hbmem, rfl⟩, aKey, bKey, ⟨o, ho, hjoin, haid.symm⟩, hbid, hcolumn,
      haKey, hbKey, rfl⟩

/-- Where no column carries the join, none goes with it, so its junction table is in nobody's way. -/
theorem withJunction_valid (hv : schema.Valid) (hunused : ids.UnusedIn schema) {join : JoinId}
    (h : ∀ t ∈ schema.tables, ∀ c ∈ t.columns, c.carries join = false) {config : JoinConfig}
    {a b : Table} {aKey bKey : Column} (ha : schema.table? a.id = some a)
    (hb : schema.table? b.id = some b) (haKey : a.junctionKey? config.joinColumn = some aKey)
    (hbKey : b.junctionKey? config.inverseColumn = some bKey)
    (hname : schema.tableNamed? (junctionName config a b) = none) :
    (schema.withJunction join a b (junctionBetween ids config a b aKey bKey)).Valid := by
  have hnone : ∀ target, ¬ schema.Loses [join] target := by
    rintro target ⟨t, ht, -, c, hc, -, hgoes⟩
    simp [Column.goesWith, h t ht c hc] at hgoes
  refine (withJunction_valid_iff hv hunused ha hb haKey hbKey hname).mpr ?_
  rintro (⟨_, _, _, target, _, hlost⟩ | hlost | hlost)
  · exact hnone target hlost
  · exact hnone _ hlost
  · exact hnone _ hlost

theorem tableNamed?_eq_none_iff {name : String} :
    schema.tableNamed? name = none ↔ name ∉ schema.tables.map (·.name) := by
  rw [← tableNamed?_isSome_iff, Option.not_isSome_iff_eq_none]

/-- A pending join is configured to be many-to-many: it gets the junction table that it is to get. -/
theorem configureJoin_of_makes (hv : schema.Valid) {d : Source.Deferred} {k : Nat}
    (hunused : (ids.skip k).UnusedIn schema) (hwaits : d.join ∈ schema.pendingJoins.map (·.id))
    (hkind : d.config.kind = .manyToMany) {made : Table × Join × Join}
    (hmakes : schema.Makes ids (d, k) made) (hname : made.1.name ∉ schema.tables.map (·.name)) :
    schema.configureJoin (ids.skip k) d.join d.config =
      .ok (schema.withJunctions [d.join] [made], .junction ((ids.skip k).tableId 0)) := by
  obtain ⟨⟨o, ho, hjoin⟩, huncarried⟩ := owner_of_pending hv hwaits
  have hdeclaring : schema.declaring? d.join = some o.1 := hjoin ▸ declaring?_of_owner hv ho
  obtain ⟨a, b, aKey, bKey, ha, hb, hcolumn, haKey, hbKey, rfl⟩ :=
    (makes_iff_table? hv ho hjoin).mp hmakes
  have hfree := tableNamed?_eq_none_iff.mpr hname
  have hvalid := withJunction_valid hv hunused huncarried ((mem_of_table? ha).2 ▸ ha)
    ((mem_of_table? hb).2 ▸ hb) haKey hbKey hfree
  refine (Schema.configureJoin_iff (Or.inl ⟨_, rfl⟩)).mpr
    ⟨b, o.1, hb, hcolumn, hdeclaring, Or.inl ⟨hkind, ?_⟩⟩
  refine bind_eq_ok.mpr ⟨(_, (ids.skip k).tableId 0),
    (synthesizeJunction_iff (Or.inl ⟨_, rfl⟩)).mpr
      ⟨a, b, aKey, bKey, ha, hb, haKey, hbKey, hfree, ?_⟩, rfl⟩
  rw [settle_of_valid hvalid, withJunction_eq hv.ids huncarried]
  rfl

/-- **A junction table is made for a join that waits**, if there is a column for either side and the
name is free. -/
theorem AwaitsJunctions.configureJoin_iff {d : Source.Deferred} {rest : List Source.Deferred}
    (h : schema.AwaitsJunctions ids n (d :: rest)) :
    (∃ configured, schema.configureJoin (ids.skip n) d.join d.config = .ok (next, configured)) ↔
      ∃ made, schema.Makes ids (d, n) made ∧ made.1.name ∉ schema.tables.map (·.name) ∧
        next = schema.withJunctions [d.join] [made] := by
  have hv := h.compiled.valid
  have hkind := h.kinds d List.mem_cons_self
  constructor
  · rintro ⟨configured, hc⟩
    obtain ⟨⟨o, ho, hjoin⟩, huncarried⟩ := owner_of_pending hv (h.waits d List.mem_cons_self)
    have hdeclaring : schema.declaring? d.join = some o.1 := hjoin ▸ declaring?_of_owner hv ho
    obtain ⟨chosen, declaring, hchosen, hcolumn, hd, hbuilt⟩ :=
      (Schema.configureJoin_iff (Or.inl ⟨_, rfl⟩)).mp hc
    obtain ⟨-, hbuilt⟩ := hbuilt.resolve_right fun hother => hother.1 hkind
    obtain ⟨⟨built, table⟩, hj, hr⟩ := bind_eq_ok.mp hbuilt
    cases hr
    obtain ⟨a, b, aKey, bKey, ha, hb, haKey, hbKey, hname, hbuilt⟩ :=
      (synthesizeJunction_iff (Or.inl ⟨_, rfl⟩)).mp hj
    obtain ⟨-, rfl, -⟩ := settled_beside hbuilt
    obtain rfl := Option.some.inj (hdeclaring.symm.trans hd)
    obtain rfl := Option.some.inj (hb.symm.trans hchosen)
    refine ⟨_, (makes_iff_table? hv ho hjoin).mpr
      ⟨a, b, aKey, bKey, ha, hb, hcolumn, haKey, hbKey, rfl⟩,
      tableNamed?_eq_none_iff.mp hname, ?_⟩
    exact withJunction_eq hv.ids huncarried ..
  · rintro ⟨made, hmakes, hname, rfl⟩
    exact ⟨_, configureJoin_of_makes hv h.unusedIn (h.waits d List.mem_cons_self) hkind hmakes
      hname⟩

/-! ## The other joins that wait -/

section

variable {d d' : Source.Deferred} {rest : List Source.Deferred} {configured : Configured}

theorem ids_junction {join : JoinId} {declaring table : TableId} {config : JoinConfig}
    (hj : schema.synthesizeJunction ids join declaring config = .ok (next, table)) :
    schema.tables.map (·.id) ⊆ next.tables.map (·.id) := by
  obtain ⟨-, a, b, junction, toA, toB, -, -, -, -, -, hnext⟩ := synthesizeJunction_eq_ok hj
  rw [hnext, append, List.map_append,
    (sameTables_addJoins (schema.strip join) a.id b.id toA.mirror toB.mirror).ids, ids_strip]
  exact List.subset_append_left _ _

/-- What waits is many-to-many, so it has no other way to go than to get a junction table. -/
theorem AwaitsJunctions.synthesized (h : schema.AwaitsJunctions ids n (d :: rest))
    (hc : schema.configureJoin (ids.skip n) d.join d.config = .ok (next, configured)) :
    ∃ declaring table,
      schema.synthesizeJunction (ids.skip n) d.join declaring d.config = .ok (next, table) := by
  obtain ⟨declaring, -, ⟨-, table, hj⟩ | ⟨hne, -⟩⟩ := configureJoin_eq_ok hc
  · exact ⟨declaring, table, hj⟩
  · exact absurd (h.kinds d List.mem_cons_self) hne

/-- Joins that wait go on to do so when a junction table is made for another, and their records are
what they were. -/
theorem AwaitsJunctions.step (h : schema.AwaitsJunctions ids n (d :: rest))
    (hc : schema.configureJoin (ids.skip n) d.join d.config = .ok (next, configured)) :
    next.AwaitsJunctions ids (n + 4) rest ∧
      ∀ d' ∈ rest, ∀ o : TableId × Join, o.2.id = d'.join →
        (o ∈ next.owners ↔ o ∈ schema.owners) := by
  have hjoins := List.nodup_cons.mp h.joins
  have hother : ∀ d' ∈ rest, d'.join ≠ d.join := fun d' hd' he =>
    hjoins.1 (List.mem_map.mpr ⟨d', hd', he⟩)
  obtain ⟨declaring, table, hj⟩ := h.synthesized hc
  obtain ⟨made, howners, hmade⟩ := Source.owners_junction hj
  refine ⟨⟨Source.compiled_junction h.compiled (Nat.le_refl n) hj,
    fun d' hd' => h.kinds d' (List.mem_cons_of_mem _ hd'), hjoins.2, ?_, ?_, ?_⟩, ?_⟩
  · intro d' hd'
    obtain ⟨record, hrecord, hid⟩ := List.mem_map.mp (h.waits d' (List.mem_cons_of_mem _ hd'))
    rw [pendingJoins_junction hj]
    refine List.mem_map.mpr ⟨record, List.mem_filter.mpr ⟨hrecord, ?_⟩, hid⟩
    simpa [hid] using hother d' hd'
  · exact fun d' hd' => ids_junction hj (h.targets d' (List.mem_cons_of_mem _ hd'))
  · intro o ho
    rw [howners] at ho
    rcases List.mem_append.mp ho with hold | hnew
    · obtain ⟨a, ha, hdeclared⟩ := h.declared o (List.mem_filter.mp hold).1
      exact ⟨a, by omega, hdeclared⟩
    · obtain ⟨target, m, -, -, hid⟩ := hmade o hnew
      exact ⟨n, by omega, target.table, m, ids.tableId_skip n 0 ▸ hid⟩
  · intro d' hd' o hid
    rw [howners, List.mem_append, List.mem_filter]
    constructor
    · rintro (hold | hnew)
      · exact hold.1
      · obtain ⟨target, m, -, -, hnew⟩ := hmade o hnew
        exact absurd (hid.symm.trans hnew) (h.join_ne (List.mem_cons_of_mem _ hd') target.table m)
    · intro ho
      exact Or.inl ⟨ho, by simpa [hid] using hother d' hd'⟩

/-- The tables of a schema keep their owning records when junction tables come to it, and each junction
table has its own. -/
theorem mem_owners_withJunctions {joins : List JoinId} {made : List (Table × Join × Join)}
    (hnew : ∀ m ∈ made, ∀ side ∈ sideMirrors m, ∀ t ∈ schema.tables, side.2.source ≠ t.id)
    {o : TableId × Join} (ho : o ∈ (schema.withJunctions joins made).owners) :
    o ∈ schema.owners ∨ ∃ m ∈ made, o.1 = m.1.id ∧ o.2 ∈ m.1.owners := by
  obtain ⟨t, ht, hid, hj⟩ := mem_owners.mp ho
  rcases List.mem_append.mp ht with ht | ht
  · obtain ⟨_, hcleared, rfl⟩ := List.mem_map.mp ht
    obtain ⟨u, hu, rfl⟩ := List.mem_map.mp hcleared
    refine Or.inl (mem_owners.mpr ⟨u, hu, hid, ?_⟩)
    rcases List.mem_append.mp hj with hj | hj
    · exact List.mem_append_left _ hj
    · -- the mirrors that the table gets are not its own
      obtain ⟨hmem, hsource⟩ := List.mem_filter.mp hj
      rcases List.mem_append.mp hmem with hmem | hmem
      · exact List.mem_append_right _
          (List.mem_filter.mpr ⟨(List.mem_filter.mp hmem).1, hsource⟩)
      · obtain ⟨side, hside, he⟩ := List.mem_map.mp hmem
        obtain ⟨m, hm, hside⟩ := List.mem_flatMap.mp (List.mem_filter.mp hside).1
        exact absurd (he ▸ of_decide_eq_true hsource) (hnew m hm side hside u hu)
  · obtain ⟨m, hm, rfl⟩ := List.mem_map.mp ht
    exact Or.inr ⟨m, hm, hid.symm, hj⟩

theorem bareTables_withJunctions (schema : Schema) (joins : List JoinId)
    (made : List (Table × Join × Join)) :
    (schema.withJunctions joins made).bareTables =
      schema.bareTables ++ made.map (·.1.withoutJoins) := by
  rw [bareTables, withJunctions, List.map_append, holding, mapTables, mapTables, List.map_map,
    List.map_map, List.map_map]
  rfl

/-- What a join gets does not depend on whether another has got its junction table. -/
theorem AwaitsJunctions.makes_iff (h : schema.AwaitsJunctions ids n (d :: rest))
    {made made' : Table × Join × Join} (hmade : schema.Makes ids (d, n) made)
    (hc : schema.configureJoin (ids.skip n) d.join d.config =
      .ok (schema.withJunctions [d.join] [made], configured))
    (hd' : d' ∈ rest) {k : Nat} :
    (schema.withJunctions [d.join] [made]).Makes ids (d', k) made' ↔
      schema.Makes ids (d', k) made' := by
  have howners := (h.step hc).2 d' hd'
  have htables : ∀ {t : Table}, t.id ∈ schema.tables.map (·.id) →
      (t ∈ (schema.withJunctions [d.join] [made]).bareTables ↔ t ∈ schema.bareTables) := by
    intro t ht
    rw [bareTables_withJunctions, List.map_singleton, List.mem_append, List.mem_singleton]
    refine or_iff_left ?_
    rintro rfl
    obtain ⟨u, hu, hid⟩ := List.mem_map.mp ht
    exact h.unusedIn.texts.tableId_ne 0 hu (hmade.shape.1.symm.trans hid.symm)
  have hsource : ∀ {o : TableId × Join}, o ∈ schema.owners → o.1 ∈ schema.tables.map (·.id) := by
    intro o ho
    obtain ⟨t, ht, hid, -⟩ := mem_owners.mp ho
    exact List.mem_map.mpr ⟨t, ht, hid⟩
  have htarget := h.targets d' (List.mem_cons_of_mem _ hd')
  constructor
  · rintro ⟨a, ha, b, hb, aKey, bKey, ⟨o, ho, hjoin, haid⟩, hbid, hmakes⟩
    have ho := (howners o hjoin).mp ho
    exact ⟨a, (htables (haid ▸ hsource ho)).mp ha, b, (htables (hbid ▸ htarget)).mp hb, aKey, bKey,
      ⟨o, ho, hjoin, haid⟩, hbid, hmakes⟩
  · rintro ⟨a, ha, b, hb, aKey, bKey, ⟨o, ho, hjoin, haid⟩, hbid, hmakes⟩
    exact ⟨a, (htables (haid ▸ hsource ho)).mpr ha, b, (htables (hbid ▸ htarget)).mpr hb,
      aKey, bKey, ⟨o, (howners o hjoin).mpr ho, hjoin, haid⟩, hbid, hmakes⟩

theorem AwaitsJunctions.forall_makes_iff (h : schema.AwaitsJunctions ids n (d :: rest))
    {first : Table × Join × Join} (hfirst : schema.Makes ids (d, n) first)
    (hc : schema.configureJoin (ids.skip n) d.join d.config =
      .ok (schema.withJunctions [d.join] [first], configured))
    {k : Nat} {made : List (Table × Join × Join)} :
    List.Forall₂ ((schema.withJunctions [d.join] [first]).Makes ids)
        (places (fun _ => 4) k rest) made ↔
      List.Forall₂ (schema.Makes ids) (places (fun _ => 4) k rest) made := by
  constructor
  · exact fun hall => forall₂_imp_mem hall fun _ hwaiting _ _ =>
      (h.makes_iff hfirst hc (fst_mem_of_mem_places hwaiting)).mp
  · exact fun hall => forall₂_imp_mem hall fun _ hwaiting _ _ =>
      (h.makes_iff hfirst hc (fst_mem_of_mem_places hwaiting)).mpr

end

/-! ## All junction tables -/

theorem withJunctions_nil (schema : Schema) : schema.withJunctions [] [] = schema := by
  refine congrArg Schema.mk ?_
  rw [List.map_nil, List.append_nil, holding, mapTables, mapTables, List.map_map]
  refine (List.map_congr_left fun t _ => ?_).trans (List.map_id _)
  simp [Table.clearAll]

/-- Junction tables that come later leave earlier ones and their mirrors as they are. -/
theorem withJunctions_append {joins joins' : List JoinId}
    {made made' : List (Table × Join × Join)} (hjoins : ∀ first ∈ made, first.1.joins = [])
    (hmade : ∀ m ∈ made.flatMap sideMirrors, m.2.id ∉ joins')
    (hmade' : ∀ first ∈ made, ∀ m ∈ made'.flatMap sideMirrors, m.1 ≠ first.1.id) :
    (schema.withJunctions joins made).withJunctions joins' made' =
      schema.withJunctions (joins ++ joins') (made ++ made') := by
  have hold : ∀ t : Table, ((t.joins.filter (·.id ∉ joins) ++
      ((made.flatMap sideMirrors).filter (·.1 = t.id)).map (·.2)).filter (·.id ∉ joins')) =
        t.joins.filter (·.id ∉ joins ++ joins') ++
          ((made.flatMap sideMirrors).filter (·.1 = t.id)).map (·.2) := by
    intro t
    rw [List.filter_append, List.filter_filter]
    congr 1
    · refine List.filter_congr fun j _ => ?_
      simp [Bool.and_comm]
    · refine List.filter_eq_self.mpr fun j hj => ?_
      obtain ⟨m, hm, rfl⟩ := List.mem_map.mp hj
      simpa using hmade m (List.mem_filter.mp hm).1
  have hfirst : ∀ first ∈ made, ({ first.1.clearAll joins' with
      joins := (first.1.clearAll joins').joins ++
        ((made'.flatMap sideMirrors).filter (·.1 = first.1.id)).map (·.2) } : Table) = first.1 := by
    intro first hfirst
    have hnone : (made'.flatMap sideMirrors).filter (·.1 = first.1.id) = [] :=
      List.filter_eq_nil_iff.mpr fun m hm => by simpa using hmade' first hfirst m hm
    simp only [Table.clearAll, hjoins first hfirst, hnone, List.filter_nil, List.map_nil,
      List.append_nil]
    rw [← hjoins first hfirst]
  refine congrArg Schema.mk ?_
  simp only [withJunctions, holding, mapTables, List.map_map, List.map_append, List.flatMap_append,
    List.append_assoc]
  congr 1
  · refine List.map_congr_left fun t _ => ?_
    simp only [Function.comp_apply, Table.clearAll, hold, List.filter_append, List.map_append,
      List.append_assoc]
  · exact congrArg (· ++ _) (List.map_congr_left hfirst)

/-- The first of the junction tables may as well be there before the others. -/
theorem AwaitsJunctions.withJunctions_first {d : Source.Deferred} {rest : List Source.Deferred}
    (h : schema.AwaitsJunctions ids n (d :: rest)) {first : Table × Join × Join}
    (hfirst : schema.Makes ids (d, n) first) {k : Nat} {made : List (Table × Join × Join)}
    (hmade : List.Forall₂ (schema.Makes ids) (places (fun _ => 4) k rest) made) :
    (schema.withJunctions [d.join] [first]).withJunctions (rest.map (·.join)) made =
      schema.withJunctions (d.join :: rest.map (·.join)) (first :: made) := by
  obtain ⟨hid, hjoins, hmirrors⟩ := hfirst.shape
  refine withJunctions_append (List.forall_mem_singleton.mpr hjoins) (fun m hm hmem => ?_)
    (List.forall_mem_singleton.mpr fun m hm he => ?_)
  · obtain ⟨d', hd', hjoin⟩ := List.mem_map.mp hmem
    rw [List.flatMap_singleton] at hm
    obtain ⟨-, table, k, hmirror⟩ := hmirrors m hm
    exact h.join_ne (List.mem_cons_of_mem _ hd') table k (hjoin.trans hmirror)
  · obtain ⟨later, hlater, hm⟩ := List.mem_flatMap.mp hm
    obtain ⟨waiting, -, hmakes⟩ := exists_left hmade hlater
    obtain ⟨t, ht, hside⟩ := List.mem_map.mp (hmakes.shape.2.2 m hm).1
    exact h.unusedIn.texts.tableId_ne 0 ht (hid.symm.trans (he.symm.trans hside.symm))

theorem names_withJunctions (schema : Schema) (joins : List JoinId)
    (made : List (Table × Join × Join)) :
    (schema.withJunctions joins made).tables.map (·.name) =
      schema.tables.map (·.name) ++ made.map (·.1.name) := by
  rw [withJunctions, List.map_append, holding, mapTables, mapTables, List.map_map, List.map_map,
    List.map_map]
  rfl

end Schema

namespace Source

variable {schema next : Schema} {ids : IdSupply} {n : Nat}

theorem makeJunctions_cons_iff {ids : IdSupply} {d : Deferred} {rest : List Deferred} :
    makeJunctions ids schema (d :: rest) = .ok next ↔ ∃ middle configured,
      schema.configureJoin ids d.join d.config = .ok (middle, configured) ∧
        makeJunctions (ids.skip 4) middle rest = .ok next := by
  rw [makeJunctions]
  constructor
  · intro h
    split at h
    · rename_i middle configured hc
      exact ⟨middle, configured, hc, h⟩
    · cases h
  · rintro ⟨middle, configured, hc, h⟩
    rw [hc]
    exact h

/-- **The junction tables that are made one by one are those that the joins get in the schema as it
is**, if their names are apart. -/
theorem makeJunctions_iff {deferred : List Deferred} (h : schema.AwaitsJunctions ids n deferred) :
    makeJunctions (ids.skip n) schema deferred = .ok next ↔
      ∃ made, List.Forall₂ (schema.Makes ids) (places (fun _ => 4) n deferred) made ∧
        (schema.tables.map (·.name) ++ made.map (·.1.name)).Nodup ∧
        next = schema.withJunctions (deferred.map (·.join)) made := by
  induction deferred generalizing schema n with
  | nil =>
      have hnames := h.compiled.valid.names
      rw [makeJunctions, Except.ok.injEq]
      constructor
      · rintro rfl
        refine ⟨[], .nil, ?_, schema.withJunctions_nil.symm⟩
        rw [List.map_nil, List.append_nil]
        exact hnames
      · rintro ⟨_, ⟨⟩, -, rfl⟩
        exact schema.withJunctions_nil.symm
  | cons d rest ih =>
      -- the rest is made as if the first junction table were not there
      have hrest : ∀ {first configured}, schema.Makes ids (d, n) first →
          schema.configureJoin (ids.skip n) d.join d.config =
            .ok (schema.withJunctions [d.join] [first], configured) →
          (makeJunctions (ids.skip (n + 4)) (schema.withJunctions [d.join] [first]) rest =
              .ok next ↔
            ∃ made, List.Forall₂ (schema.Makes ids) (places (fun _ => 4) (n + 4) rest) made ∧
              (schema.tables.map (·.name) ++ (first :: made).map (·.1.name)).Nodup ∧
              next = schema.withJunctions (d.join :: rest.map (·.join)) (first :: made)) := by
        intro first configured hfirst hc
        rw [ih (h.step hc).1]
        refine exists_congr fun made => ?_
        rw [h.forall_makes_iff hfirst hc, Schema.names_withJunctions, List.append_assoc]
        refine and_congr_right fun hmade => and_congr_right fun _ => ?_
        rw [h.withJunctions_first hfirst hmade]
      rw [makeJunctions_cons_iff]
      constructor
      · rintro ⟨middle, configured, hc, hm⟩
        obtain ⟨first, hfirst, -, rfl⟩ := h.configureJoin_iff.mp ⟨configured, hc⟩
        obtain ⟨made, hmade, hnames, hnext⟩ := (hrest hfirst hc).mp hm
        exact ⟨first :: made, .cons hfirst hmade, hnames, hnext⟩
      · rintro ⟨_, hall, hnames, hnext⟩
        obtain ⟨first, made, hfirst, hmade, rfl⟩ := List.forall₂_cons_left_iff.mp hall
        have hfree : first.1.name ∉ schema.tables.map (·.name) := fun hmem =>
          (List.nodup_append.mp hnames).2.2 _ hmem _ List.mem_cons_self rfl
        obtain ⟨configured, hc⟩ := h.configureJoin_iff.mpr ⟨first, hfirst, hfree, rfl⟩
        exact ⟨_, configured, hc, (hrest hfirst hc).mpr ⟨made, hmade, hnames, hnext⟩⟩

/-- The junction tables of a linked document can be made, since what waits is pending. -/
theorem Linking.Sound.awaitsJunctions {linking : Linking} (h : linking.Sound ids n)
    (hv : linking.schema.Valid) : linking.schema.AwaitsJunctions ids n linking.deferred := by
  obtain ⟨howners, -, htables⟩ := placeMirrors h.mirrors
  have hpending : linking.schema.pendingJoins = linking.bare.collect Table.pendingJoins :=
    (Schema.pendingJoins_eq _).trans
      (pendingJoins_placeMirrors linking.bare fun m hm => (h.mirrors m hm).1)
  have hwaiting : (linking.schema.pendingJoins.map (·.id)).Perm (linking.deferred.map (·.join)) :=
    hpending ▸ h.waiting
  refine ⟨h.compiled hv, h.deferred, hwaiting.nodup_iff.mp (Schema.pendingIds_nodup hv),
    fun d hd => ?_, fun d hd => ?_, fun o ho => ?_⟩
  · exact hwaiting.mem_iff.mpr (List.mem_map.mpr ⟨d, hd, rfl⟩)
  · have hids : linking.schema.tables.map (·.id) = linking.tables.map (·.id) :=
      Schema.SameTables.ids htables
    exact hids ▸ h.targets d hd
  · have hmem : o.2.id ∈ linking.bare.owners.map (·.2.id) :=
      List.mem_map.mpr ⟨o, howners ▸ ho, rfl⟩
    obtain ⟨pair, hpair, k, -, hid⟩ := numbered_lt (h.joinIds.mem_iff.mp hmem)
    obtain ⟨a, ha, b, rfl⟩ := h.declared pair hpair
    exact ⟨a, ha, _, k, hid⟩

end Source

namespace Schema

variable {schema next : Schema} {ids ids' : IdSupply} {n : Nat}

/-! ## In another order -/

theorem bareTables_perm (h : schema.content = next.content) :
    schema.bareTables.Perm next.bareTables := by
  have := (content_eq_iff.mp h).map (·.1)
  rwa [List.map_map, List.map_map] at this

theorem Makes.of_content {waiting : Source.Deferred × Nat} {made : Table × Join × Join}
    (hm : schema.Makes ids waiting made) (h : schema.content = next.content) :
    next.Makes ids waiting made := by
  obtain ⟨a, ha, b, hb, aKey, bKey, ⟨o, ho, howner⟩, hmakes⟩ := hm
  exact ⟨a, (bareTables_perm h).subset ha, b, (bareTables_perm h).subset hb, aKey, bKey,
    ⟨o, (owners_perm h).subset ho, howner⟩, hmakes⟩

/-- Junction tables may be put into a schema in any order. -/
theorem content_withJunctions {joins joins' : List JoinId} {made made' : List (Table × Join × Join)}
    (hjoins : joins.Perm joins') (hmade : made.Perm made') (h : schema.content = next.content) :
    (schema.withJunctions joins made).content = (next.withJunctions joins' made').content := by
  have hclear : (schema.mapTables (·.clearAll joins)).content =
      (next.mapTables (·.clearAll joins')).content := by
    have hsame : (fun t : Table => t.clearAll joins') = (·.clearAll joins) := funext fun t =>
      congrArg (fun records => { t with joins := records })
        (List.filter_congr fun j _ => decide_eq_decide.mpr (not_congr hjoins.symm.mem_iff))
    rw [hsame]
    refine content_mapTables (fun t u he => ?_) h
    obtain ⟨htable, hrecords⟩ := Table.content_eq_iff.mp he
    exact Table.content_eq_iff.mpr ⟨htable, hrecords.filter _⟩
  have hheld := content_holding (hmade.flatMap_right sideMirrors) hclear
  refine content_eq_iff.mpr ?_
  rw [withJunctions, withJunctions, List.map_append, List.map_append]
  exact (content_eq_iff.mp hheld).append ((hmade.map _).map _)

end Schema

/-! ## Under other ids -/

namespace Relabelling

variable {names : Relabelling} {place : Nat → Nat} {schema : Schema} {ids ids' : IdSupply} {n : Nat}

/-- A junction table and its joins under the new ids. -/
def onMade (names : Relabelling) (made : Table × Join × Join) : Table × Join × Join :=
  Prod.map names.onTable (Prod.map names.record names.record) made

theorem sideMirrors_onMade (names : Relabelling) (made : Table × Join × Join) :
    sideMirrors (names.onMade made) = (sideMirrors made).map names.beside := by
  show ([made.2.1, made.2.2].map names.record).filterMap _ = _
  rw [sideMirrors, List.map_filterMap, List.filterMap_map]
  refine congrArg (List.filterMap · _) (funext fun join => ?_)
  rw [Function.comp_apply, record, Option.map_map, Option.map_map]
  rfl

theorem apply_holding (h : Function.Injective names.table) (schema : Schema)
    (records : List (TableId × Join)) :
    names.apply (schema.holding records) =
      (names.apply schema).holding (records.map names.beside) := by
  refine congrArg Schema.mk ?_
  simp only [apply, Schema.holding, Schema.mapTables, List.map_map]
  refine List.map_congr_left fun t _ => ?_
  have hrecords : ((records.filter (·.1 = t.id)).map (·.2)).map names.record =
      ((records.map names.beside).filter (·.1 = names.table t.id)).map (·.2) := by
    rw [List.filter_map, List.map_map, List.map_map]
    refine congrArg _ (List.filter_congr fun r _ => ?_)
    exact decide_eq_decide.mpr h.eq_iff.symm
  rw [Function.comp_apply, Function.comp_apply, onTable, List.map_append, hrecords]
  rfl

theorem apply_clearAll (hj : Function.Injective names.join) (schema : Schema)
    (joins : List JoinId) : names.apply (schema.mapTables (·.clearAll joins)) =
      (names.apply schema).mapTables (·.clearAll (joins.map names.join)) := by
  refine congrArg Schema.mk ?_
  rw [apply, Schema.mapTables, Schema.mapTables, List.map_map, List.map_map]
  refine List.map_congr_left fun t _ => ?_
  have hrecords : (t.joins.filter (·.id ∉ joins)).map names.record =
      (t.joins.map names.record).filter (·.id ∉ joins.map names.join) := by
    rw [List.filter_map]
    refine congrArg _ (List.filter_congr fun j _ => ?_)
    exact decide_eq_decide.mpr (not_congr (List.mem_map_of_injective hj).symm)
  rw [Function.comp_apply, Function.comp_apply, onTable, Table.clearAll, hrecords]
  rfl

theorem apply_withJunctions (ht : Function.Injective names.table)
    (hj : Function.Injective names.join) (schema : Schema) (joins : List JoinId)
    (made : List (Table × Join × Join)) :
    names.apply (schema.withJunctions joins made) =
      (names.apply schema).withJunctions (joins.map names.join) (made.map names.onMade) := by
  have hmirrors : (made.map names.onMade).flatMap sideMirrors =
      (made.flatMap sideMirrors).map names.beside := by
    rw [List.flatMap_map, List.map_flatMap]
    exact congrArg (List.flatMap · made) (funext fun m => names.sideMirrors_onMade m)
  have hheld := names.apply_holding ht (schema.mapTables (·.clearAll joins))
    (made.flatMap sideMirrors)
  rw [apply_clearAll hj, ← hmirrors] at hheld
  refine congrArg Schema.mk ?_
  rw [Schema.withJunctions, List.map_append, ← congrArg Schema.tables hheld, List.map_map,
    List.map_map]
  rfl

end Relabelling

/-- A junction table that is made is made under the new ids as well, if the four ids that it takes
stay together. -/
theorem Schema.Makes.relabel {names : Relabelling} {place : Nat → Nat} {schema : Schema}
    {ids ids' : IdSupply} {n k : Nat} (h : names.Moves place ids ids') (hv : schema.Valid)
    (hdrawn : schema.DrawnFrom ids n) (hk : ∀ i < 4, place (k + i) = place k + i)
    {d : Source.Deferred} {made : Table × Join × Join} (hm : schema.Makes ids (d, k) made) :
    (names.apply schema).Makes ids' (names.onDeferred d, place k) (names.onMade made) := by
  obtain ⟨_, ha, _, hb, aKey, bKey, ⟨o, ho, hjoin, haid⟩, hbid, hcolumn, haKey, hbKey, rfl⟩ := hm
  have hbare : ∀ {t}, t ∈ schema.bareTables →
      names.onTable t ∈ (names.apply schema).bareTables ∧ ∃ i, t.id = ids.tableId i := by
    intro t ht
    obtain ⟨u, hu, rfl⟩ := List.mem_map.mp ht
    have hid := hdrawn.tableId hu
    exact ⟨List.mem_map.mpr ⟨names.onTable u, List.mem_map.mpr ⟨u, hu, rfl⟩, rfl⟩, hid⟩
  have howner : names.beside o ∈ (names.apply schema).owners := by
    rw [owners_relabel hv fun _ _ _ _ he => h.tables he]
    exact List.mem_map.mpr ⟨o, ho, rfl⟩
  refine ⟨_, (hbare ha).1, _, (hbare hb).1, names.onColumn aKey, names.onColumn bKey,
    ⟨names.beside o, howner, congrArg names.join hjoin, congrArg names.table haid⟩,
    congrArg names.table hbid, fun c hc => ?_, ?_, ?_, ?_⟩
  · obtain ⟨old, hold, rfl⟩ := Option.map_eq_some_iff.mp hc
    rw [names.column?_onTable h.columns, Option.isSome_map]
    exact hcolumn old hold
  · exact (names.junctionKey?_onTable _ _).trans (congrArg (Option.map names.onColumn) haKey)
  · exact (names.junctionKey?_onTable _ _).trans (congrArg (Option.map names.onColumn) hbKey)
  · exact (h.junctionBetween (hbare ha).2 (hbare hb).2 d.config aKey bKey hk).symm

end ErModel
