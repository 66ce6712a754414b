import ErModel.Proofs.Complete
import ErModel.Proofs.EdgeSet
import ErModel.Proofs.Rebuilding
import ErModel.Proofs.Reconciling
import ErModel.Proofs.Renumbering
import Mathlib.Data.List.Forall2

/-!
# The same text again

A text that is submitted a second time changes nothing. It compiles to what it compiled to the first
time, under other ids; its tables and columns are found under their names in the schema that the first
time has left, and its foreign keys on the columns where they are now, so everything has the id that
it has already. The pending joins have been put back once and can be put back again. Only the order of
the records of a table may change: they are put back in the order of the tables that declare them.
-/

namespace ErModel

/-! ## Tables without columns -/

/-- A table without columns has no key, unless it waits for a junction table: then its key may have
been the property that is no column. -/
def Table.KeyAccounted (table : Table) : Prop :=
  table.columns = [] → table.primaryKey = none ∨ table.pendingJoins ≠ []

theorem Table.KeyAccounted.addJoin {table : Table} (h : table.KeyAccounted) (join : Join) :
    (table.addJoin join).KeyAccounted := by
  intro hnone
  refine (h hnone).imp_right fun hpending he => hpending ?_
  rw [Table.addJoin, Table.pendingJoins, List.filter_append] at he
  exact (List.append_eq_nil_iff.mp he).1

theorem Table.KeyAccounted.link {table : Table} (h : table.KeyAccounted) (property : String)
    {join : Join} (hs : join.source = table.id) : (table.link property join).KeyAccounted := by
  intro hnone
  rw [pendingJoins, link_id]
  unfold Table.link at hnone ⊢
  split at hnone
  · right
    rw [if_pos ‹_›, List.filter_append, List.filter_cons_of_pos (by simpa using hs)]
    exact List.append_ne_nil_of_right_ne_nil _ (List.cons_ne_nil _ _)
  · rw [if_neg ‹_›]
    have hlength := congrArg List.length (show modifyFirst _ _ table.columns = [] from hnone)
    rw [length_modifyFirst] at hlength
    exact h (List.eq_nil_of_length_eq_zero hlength)

namespace Schema

variable {schema next : Schema}

theorem keyAccounted_addJoin (h : ∀ t ∈ schema.tables, t.KeyAccounted) (id : TableId) (join : Join) :
    ∀ t ∈ (schema.modifyTable id (·.addJoin join)).tables, t.KeyAccounted := by
  intro t ht
  rcases mem_of_modifyTable ht with ht | ⟨u, hu, rfl⟩
  · exact h t ht
  · exact (h u (mem_of_table? hu).1).addJoin join

/-- What waits for a junction table has a column by the time that it is made. -/
theorem keyAccounted_junction (hv : schema.Valid) (h : ∀ t ∈ schema.tables, t.KeyAccounted)
    {ids : IdSupply} {join : JoinId} {declaring table : TableId} {config : JoinConfig}
    (hdeclaring : schema.declaring? join = some declaring)
    (hj : schema.synthesizeJunction ids join declaring config = .ok (next, table)) :
    ∀ t ∈ next.tables, t.KeyAccounted := by
  obtain ⟨a, b, aKey, bKey, ha, -, haKey, -, -, hbuilt⟩ :=
    (synthesizeJunction_iff (Or.inl ⟨_, rfl⟩)).mp hj
  obtain ⟨-, rfl, -⟩ := settled_beside hbuilt
  obtain ⟨hmem, rfl⟩ := mem_of_table? ha
  have hlinks := links_junctionBetween ids config a b aKey bKey
  have hstrip : ∀ t ∈ schema.tables, (t.strip join).KeyAccounted := by
    intro t ht hnone
    have hcolumns : t.columns = [] := by
      rcases (hv.tables t ht).key with hnil | ⟨key, hkey, -⟩
      · exact hnil
      · -- the key column is not dropped
        obtain ⟨hkeyMem, hprimary⟩ := List.mem_filter.mp (hkey ▸ List.mem_singleton_self key)
        rw [Table.columns_strip, List.map_eq_nil_iff, List.filter_eq_nil_iff] at hnone
        exact absurd (by rw [hprimary]; rfl) (hnone key hkeyMem)
    refine (h t ht hcolumns).imp_right fun hpending hgone => ?_
    obtain ⟨record, hrecord⟩ := List.exists_mem_of_ne_nil _ hpending
    rw [Table.pendingJoins_strip, List.filter_eq_nil_iff] at hgone
    have hid : record.id = join := by simpa using hgone record hrecord
    -- so this is the table that declares the join, and it had a column to refer to
    obtain ⟨seat, hseat, hseatId, hholder⟩ := seat_of_declaring hdeclaring
    obtain ⟨hrecord, hsource⟩ := List.mem_filter.mp hrecord
    have howned : ⟨t, none, record⟩ ∈ schema.owningJoins :=
      mem_owningJoins_of_pending ht hrecord (by simpa using hsource)
    have hsame := eq_of_key_eq hv.ownerIds howned hseat (hid.trans hseatId.symm)
    rw [← hsame] at hholder
    obtain rfl : t = a := eq_of_key_eq hv.ids ht hmem hholder
    rw [Table.junctionKey?, Table.primaryKeyColumn?, hcolumns] at haKey
    cases hnamed : config.joinColumn with
    | none => simp [hnamed] at haKey
    | some named => simp [hnamed, Table.columnNamed?, hcolumns] at haKey
  have hstripped : ∀ t ∈ (schema.strip join).tables, t.KeyAccounted := by
    intro t ht
    obtain ⟨u, hu, rfl⟩ := List.mem_map.mp ht
    exact hstrip u hu
  intro t ht
  rcases List.mem_append.mp ht with ht | ht
  · exact keyAccounted_addJoin (keyAccounted_addJoin hstripped _ _) _ _ t ht
  · intro hnone
    have hthree := hlinks.columnIds
    rw [← List.mem_singleton.mp ht, hnone] at hthree
    cases hthree

end Schema

namespace Source

variable {ids : IdSupply} {linking next : Linking}

theorem tablesOf_keyless {entities : List Entity} {tables : List Table}
    (h : tablesOf ids entities = .ok tables) :
    ∀ t ∈ tables, t.columns = [] → t.primaryKey = none := by
  induction entities generalizing ids tables with
  | nil =>
      cases h
      simp
  | cons entity rest ih =>
      obtain ⟨table, htable, h⟩ := bind_eq_ok.mp h
      obtain ⟨more, hmore, h⟩ := bind_eq_ok.mp h
      cases h
      refine List.forall_mem_cons.mpr ⟨fun hnone => ?_, ih hmore⟩
      obtain ⟨columns, -, htable⟩ := bind_eq_ok.mp (inEntity_eq_ok htable)
      obtain ⟨key, hkey, htable⟩ := bind_eq_ok.mp htable
      cases htable
      rw [show columns = [] from hnone] at hkey
      exact (Except.ok.inj hkey).symm

theorem Linking.schema_keyAccounted (h : ∀ t ∈ linking.tables, t.KeyAccounted) :
    ∀ t ∈ linking.schema.tables, t.KeyAccounted := by
  suffices hall : ∀ schema : Schema, (∀ t ∈ schema.tables, t.KeyAccounted) →
      ∀ t ∈ (linking.mirrors.foldl (fun s m => s.modifyTable m.1 (·.addJoin m.2)) schema).tables,
        t.KeyAccounted from hall linking.bare h
  induction linking.mirrors with
  | nil => exact fun _ hs => hs
  | cons m rest ih => exact fun schema hs => ih _ (Schema.keyAccounted_addJoin hs m.1 m.2)

theorem makeJunctions_keyAccounted {schema next : Schema} {m n : Nat} (hs : schema.Compiled ids m)
    (hmn : m ≤ n) (h : ∀ t ∈ schema.tables, t.KeyAccounted) {deferred : List Deferred}
    (hkinds : ∀ d ∈ deferred, d.config.kind = .manyToMany)
    (hm : makeJunctions (ids.skip n) schema deferred = .ok next) :
    ∀ t ∈ next.tables, t.KeyAccounted := by
  induction deferred generalizing schema m n with
  | nil =>
      cases hm
      exact h
  | cons d rest ih =>
      rw [List.forall_mem_cons] at hkinds
      rw [makeJunctions] at hm
      split at hm
      · rename_i middle configured hc
        obtain ⟨declaring, hdeclaring, ⟨-, table, hj⟩ | ⟨hne, -⟩⟩ := Schema.configureJoin_eq_ok hc
        · exact ih (compiled_junction hs hmn hj) (Nat.le_refl _)
            (Schema.keyAccounted_junction hs.valid h hdeclaring hj) hkinds.2 hm
        · -- what waits is many-to-many, so it has no other way to go
          exact absurd hkinds.1 hne
      · cases hm

/-- What a document describes has no key on a table without columns, once its junction tables are
made. -/
theorem Linking.Sound.keyless {n : Nat} {document : Document} {tables : List Table}
    {sources : List (Entity × TableId)} (h : linking.Sound ids n) (hv : linking.schema.Valid)
    (ht : tablesOf ids document.entities = .ok tables)
    (hl : Linking.linkEntities ⟨tables, [], [], []⟩ sources = .ok linking) {schema : Schema}
    (hm : makeJunctions (ids.skip n) linking.schema linking.deferred = .ok schema) :
    ∀ t ∈ schema.tables, t.columns = [] → t.primaryKey = none := by
  have hbefore : ∀ t ∈ tables, t.KeyAccounted := fun t hmem hnone =>
    Or.inl (tablesOf_keyless ht t hmem hnone)
  have hlinked : ∀ t ∈ linking.tables, t.KeyAccounted := by
    refine Linking.linkEntities_forall (fun t property _ h hs => ?_) ?_ hl
    · exact h.link property hs
    · exact hbefore
  have hall := makeJunctions_keyAccounted (h.compiled hv) (Nat.le_refl _)
    (Linking.schema_keyAccounted hlinked) h.deferred hm
  intro t hmem hnone
  refine (hall t hmem hnone).resolve_right fun hpending => hpending ?_
  have hnothing := h.none_pending hm
  rw [Schema.pendingJoins_eq, Schema.collect, List.flatMap_eq_nil_iff] at hnothing
  exact hnothing t hmem

/-- What compiles has no key on a table without columns. -/
theorem compile_keyless {source : String} {rest : IdSupply} {parsed : Schema}
    (h : compile source ids = (.ok parsed, rest)) :
    ∀ t ∈ parsed.tables, t.columns = [] → t.primaryKey = none := by
  obtain ⟨document, tables, linking, -, hdistinct, htables, hlinking, hvalid, hmade⟩ :=
    compile_eq_ok h
  exact (sound_of_linkEntities hdistinct htables hlinking).keyless hvalid htables hlinking hmade

end Source

/-! ## Everything is found again -/

namespace Schema

variable {previous parsed next : Schema} {names : Relabelling} {ids ids' : IdSupply} {n n' : Nat}

/-- What is known when a text that has been reconciled with `previous`, to give `next`, compiles a
second time, to `parsed` under the ids `names`. -/
structure Resubmitted (previous parsed next : Schema) (names : Relabelling) (ids ids' : IdSupply)
    (n n' : Nat) : Prop where
  valid : previous.Valid
  compiled : parsed.Compiled ids n
  fresh : parsed.FreshFor previous
  pending : parsed.pendingJoins = []
  keyless : ∀ t ∈ parsed.tables, t.columns = [] → t.primaryKey = none
  reconciled : next = ((newIds previous parsed).apply parsed).carrying
    (previous.pendingJoins.filterMap ((newIds previous parsed).apply parsed).carried?)
  nextValid : next.Valid
  again : (names.apply parsed).Compiled ids' n'
  freshAgain : (names.apply parsed).FreshFor next

namespace Resubmitted

/-- A table is found under its name, with its id and its columns. -/
theorem found (h : Resubmitted previous parsed next names ids ids' n n') {t : Table}
    (ht : t ∈ parsed.tables) : ∃ u ∈ next.tables, next.tableNamed? t.name = some u ∧
      u.id = (newIds previous parsed).table t.id ∧
      u.columns = t.columns.map (newIds previous parsed).onColumn := by
  have hmem : ∃ u ∈ next.tables, u.withoutJoins =
      ((newIds previous parsed).onTable t).withoutJoins := by
    rw [h.reconciled]
    exact ⟨_, List.mem_map.mpr ⟨_, List.mem_map.mpr ⟨t, ht, rfl⟩, rfl⟩, rfl⟩
  obtain ⟨u, hu, he⟩ := hmem
  refine ⟨u, hu, ?_, Table.id_of_withoutJoins he, Table.columns_of_withoutJoins he⟩
  have hname : u.name = ((newIds previous parsed).onTable t).name := Table.name_of_withoutJoins he
  rw [show t.name = u.name from hname.symm]
  exact find?_key h.nextValid.names hu

theorem tableId (h : Resubmitted previous parsed next names ids ids' n n') {t : Table}
    (ht : t ∈ parsed.tables) :
    (newIds next (names.apply parsed)).table (names.table t.id) =
      (newIds previous parsed).table t.id := by
  obtain ⟨u, -, hfound, hid, -⟩ := h.found ht
  have hmem : names.onTable t ∈ (names.apply parsed).tables := List.mem_map.mpr ⟨t, ht, rfl⟩
  refine (newIds_table h.again hmem).trans ?_
  rw [show (names.onTable t).name = t.name from rfl, hfound]
  exact hid

theorem matched (h : Resubmitted previous parsed next names ids ids' n n') {t : Table}
    (ht : t ∈ parsed.tables) {c : Column} (hc : c ∈ t.columns) :
    next.matchedColumn? (names.onTable t) (names.onColumn c) =
      some ((newIds previous parsed).onColumn c) := by
  obtain ⟨u, -, hfound, -, hcolumns⟩ := h.found ht
  have hnames : ((t.columns.map (newIds previous parsed).onColumn).map (·.name)).Nodup := by
    rw [List.map_map]
    exact h.compiled.columnNames t ht
  rw [matchedColumn?, show (names.onTable t).name = t.name from rfl, hfound, Option.bind_some,
    Table.columnNamed?, hcolumns]
  exact find?_key hnames (List.mem_map.mpr ⟨c, hc, rfl⟩)

theorem columnId (h : Resubmitted previous parsed next names ids ids' n n') {t : Table}
    (ht : t ∈ parsed.tables) {c : Column} (hc : c ∈ t.columns) :
    (newIds next (names.apply parsed)).column (names.column c.id) =
      (newIds previous parsed).column c.id := by
  have hmem : names.onTable t ∈ (names.apply parsed).tables := List.mem_map.mpr ⟨t, ht, rfl⟩
  have hcolumn : names.onColumn c ∈ (names.onTable t).columns := List.mem_map.mpr ⟨c, hc, rfl⟩
  refine (newIds_column h.again hmem hcolumn).trans ?_
  rw [h.matched ht hc]
  rfl

/-- **A foreign key is the one that its column has by now.** -/
theorem foreignKey (h : Resubmitted previous parsed next names ids ids' n n') {t : Table}
    (ht : t ∈ parsed.tables) {c : Column} (hc : c ∈ t.columns) {join : Join}
    (hf : c.foreignKey = some join) :
    (newIds next (names.apply parsed)).record (names.record join) =
      (newIds previous parsed).record join := by
  have howned := mem_owningJoins_of_column ht hc hf
  obtain ⟨-, peer, hpeer, key, hkey, htarget⟩ := target_of_carried h.compiled.valid howned rfl
  have hpeerId := h.tableId hpeer
  have hid : (newIds next (names.apply parsed)).join (names.join join.id) =
      (newIds previous parsed).join join.id := by
    have hmem : names.onTable t ∈ (names.apply parsed).tables := List.mem_map.mpr ⟨t, ht, rfl⟩
    have hcolumn : names.onColumn c ∈ (names.onTable t).columns := List.mem_map.mpr ⟨c, hc, rfl⟩
    have hjoin : (names.onColumn c).foreignKey = some (names.record join) :=
      congrArg (Option.map names.record) hf
    have hold : ((newIds previous parsed).onColumn c).foreignKey =
      some ((newIds previous parsed).record join) :=
      congrArg (Option.map (newIds previous parsed).record) hf
    have hnewTarget : (names.record join).target =
        some ⟨names.table peer.id, some (names.column key.id)⟩ :=
      congrArg (Option.map names.onTarget) htarget
    refine newIds_kept h.nextValid h.again h.freshAgain hmem hcolumn hjoin hnewTarget
      (h.matched ht hc) hold ?_
    rw [hpeerId, Join.peer?, Relabelling.record, htarget]
    rfl
  have hsource : join.source = t.id := (h.compiled.valid.owners _ howned).source
  rw [Relabelling.record, Relabelling.record, Relabelling.record, hid, htarget, hsource,
    h.tableId ht]
  simp only [Option.map_some, hpeerId, h.columnId hpeer hkey]

theorem owner (h : Resubmitted previous parsed next names ids ids' n n') {o : TableId × Join}
    (ho : o ∈ parsed.owners) :
    (newIds next (names.apply parsed)).record (names.record o.2) =
      (newIds previous parsed).record o.2 := by
  obtain ⟨owned, howned, rfl⟩ := List.mem_map.mp (owners_eq parsed ▸ ho)
  obtain ⟨c, hc, -, hf⟩ := carried_of_none_pending h.pending howned
  exact h.foreignKey (mem_owningJoins howned).1 hc hf

/-- A mirror is the one that its table has by now. -/
theorem mirror (h : Resubmitted previous parsed next names ids ids' n n') {t : Table}
    (ht : t ∈ parsed.tables) {join : Join} (hj : join ∈ t.joins) :
    (newIds next (names.apply parsed)).record (names.record join) =
      (newIds previous parsed).record join := by
  have hpending := h.pending
  rw [pendingJoins_eq, collect, List.flatMap_eq_nil_iff] at hpending
  have hmirror : join ∈ t.mirrors := by
    refine List.mem_filter.mpr ⟨hj, ?_⟩
    have hnone := List.filter_eq_nil_iff.mp (hpending t ht) join hj
    simpa using hnone
  have hrecord : (t.id, join) ∈ parsed.mirrorRecords :=
    mem_mirrorRecords.mpr ⟨t, ht, rfl, hmirror⟩
  obtain ⟨o, ho, hwanted⟩ := List.mem_filterMap.mp (h.compiled.placed.mirrors.mem_iff.mp hrecord)
  obtain rfl : o.2.mirror = join := (wantedMirror?_eq_some hwanted).symm
  have hmirrors : ∀ (names : Relabelling) (owner : Join),
      names.record owner.mirror = (names.record owner).mirror := fun _ _ => rfl
  rw [hmirrors, hmirrors, hmirrors, h.owner ho]

theorem onTable (h : Resubmitted previous parsed next names ids ids' n n') {t : Table}
    (ht : t ∈ parsed.tables) :
    (newIds next (names.apply parsed)).onTable (names.onTable t) =
      (newIds previous parsed).onTable t := by
  have hsound := h.compiled.valid.tables t ht
  have hkey : (t.primaryKey.map names.column).map (newIds next (names.apply parsed)).column =
      t.primaryKey.map (newIds previous parsed).column := by
    rcases hsound.key with hnone | ⟨key, hkey, hprimary⟩
    · rw [h.keyless t ht hnone]
      rfl
    · have hmem := (List.mem_filter.mp (hkey ▸ List.mem_singleton_self key)).1
      rw [hprimary]
      exact congrArg some (h.columnId ht hmem)
  have hcolumns : (t.columns.map names.onColumn).map
      (newIds next (names.apply parsed)).onColumn =
        t.columns.map (newIds previous parsed).onColumn := by
    rw [List.map_map]
    refine List.map_congr_left fun c hc => ?_
    rw [Function.comp_apply, Relabelling.onColumn, Relabelling.onColumn, Relabelling.onColumn,
      hsound.home c hc, h.tableId ht, h.columnId ht hc]
    cases hf : c.foreignKey with
    | none => rfl
    | some join => simp only [Option.map_some, h.foreignKey ht hc hf]
  have hjoins : (t.joins.map names.record).map (newIds next (names.apply parsed)).record =
      t.joins.map (newIds previous parsed).record := by
    rw [List.map_map]
    exact List.map_congr_left fun join hj => h.mirror ht hj
  rw [Relabelling.onTable, Relabelling.onTable, Relabelling.onTable, h.tableId ht, hkey, hcolumns,
    hjoins]

/-- **Under the ids that it gets, the text describes what it described before.** -/
theorem apply_eq (h : Resubmitted previous parsed next names ids ids' n n') :
    (newIds next (names.apply parsed)).apply (names.apply parsed) =
      (newIds previous parsed).apply parsed := by
  rw [Relabelling.apply, Relabelling.apply, Relabelling.apply, mapTables, mapTables, mapTables,
    List.map_map]
  exact congrArg _ (List.map_congr_left fun t ht => h.onTable ht)

/-! ## Pending joins -/

/-- The joins that have been put back are pending, in some order. -/
theorem pendingJoins_perm (h : Resubmitted previous parsed next names ids ids' n n') :
    next.pendingJoins.Perm
      (previous.pendingJoins.filterMap ((newIds previous parsed).apply parsed).carried?) :=
  pendingJoins_reconciled h.valid h.compiled h.fresh h.pending h.reconciled

/-- All pending joins are put back as they are. -/
theorem carried (h : Resubmitted previous parsed next names ids ids' n n') :
    next.pendingJoins.filterMap ((newIds previous parsed).apply parsed).carried? =
      next.pendingJoins := by
  rw [filterMap_congr_left (g := some) fun join hjoin => ?_, List.filterMap_some]
  obtain ⟨old, -, hback⟩ := List.mem_filterMap.mp (h.pendingJoins_perm.mem_iff.mp hjoin)
  exact carried?_carried hback

end Resubmitted

end Schema

/-! ## Nothing has changed -/

theorem Canvas.getElem?_arranged (canvas : Canvas) (schema : Schema) (step : Binary64) (i : Nat) :
    (canvas.arranged schema step).places[i]? =
      schema.tables[i]?.map fun t => (t.id, canvas.positionOr t.id i step) :=
  List.getElem?_mapIdx

/-- Arranging the tables once more leaves them where they are. -/
theorem Canvas.arranged_arranged {schema schema' : Schema} (hids : (schema.tables.map (·.id)).Nodup)
    (hsame : schema'.tables.map (·.id) = schema.tables.map (·.id)) (canvas : Canvas)
    (step step' : Binary64) :
    (canvas.arranged schema step).arranged schema' step' = canvas.arranged schema step := by
  have hplaces : ((canvas.arranged schema step).arranged schema' step').places =
      (canvas.arranged schema step).places := by
    refine List.ext_getElem? fun i => ?_
    rw [getElem?_arranged, getElem?_arranged]
    have hi := congrArg (·[i]?) hsame
    simp only [List.getElem?_map] at hi
    cases ht : schema.tables[i]? with
    | none =>
        rw [ht, Option.map_none, Option.map_eq_none_iff] at hi
        rw [hi, Option.map_none, Option.map_none]
    | some t =>
        rw [ht, Option.map_some, Option.map_eq_some_iff] at hi
        obtain ⟨t', ht', hid⟩ := hi
        rw [ht', Option.map_some, Option.map_some, hid, positionOr, positionOr,
          Schema.position?_arranged hids canvas step ht, Option.getD_some]
  exact congrArg Canvas.mk hplaces

namespace Schema

/-- The same schema, but for the order of the records that each table has. -/
def SameUpToOrder (next schema : Schema) : Prop :=
  List.Forall₂ (fun t u => u.withoutJoins = t.withoutJoins ∧ u.joins.Perm t.joins)
    schema.tables next.tables

/-- **Submitting a text a second time changes nothing.** -/
theorem reconcile_again {previous parsed : Schema} {source : String} {ids rest : IdSupply}
    (hv : previous.validate = .ok ()) (hc : Source.compile source ids = (.ok parsed, rest))
    (hf : parsed.FreshFor previous) (canvas : Canvas) (step : Binary64) :
    ∃ next placed, previous.reconcile canvas parsed step = .ok (next, placed) ∧
      ∀ (ids' : IdSupply) (step' : Binary64), ∃ again rest',
        Source.compile source ids' = (.ok again, rest') ∧
        (again.FreshFor next → ∃ next',
          next.reconcile placed again step' = .ok (next', placed) ∧ next'.SameUpToOrder next) := by
  have hvalid := validate_iff.mp hv
  obtain ⟨n, hcompiled⟩ := Source.compile_compiled hc
  obtain ⟨next, placed, hnext⟩ := reconciled hvalid hcompiled hf canvas step
  have hnextValid := (placed_reconcile hcompiled.valid hcompiled.placed hnext.result).1
  refine ⟨next, placed, hnext.result, fun ids' step' => ?_⟩
  obtain ⟨names, -, rest', hc'⟩ := Source.compile_renumbered hc ids'
  refine ⟨names.apply parsed, rest', hc', fun hf' => ?_⟩
  obtain ⟨n', hcompiled'⟩ := Source.compile_compiled hc'
  have h : Resubmitted previous parsed next names ids ids' n n' :=
    ⟨hvalid, hcompiled, hf, Source.compile_pendingJoins hc, Source.compile_keyless hc,
      hnext.renamed, hnextValid, hcompiled', hf'⟩
  obtain ⟨next', placed', hnext'⟩ := reconciled hnextValid hcompiled' hf' placed step'
  have hrenamed : next' = ((newIds previous parsed).apply parsed).carrying next.pendingJoins := by
    rw [hnext'.renamed, h.apply_eq, h.carried]
  have hsame : next'.tables.map (·.id) = next.tables.map (·.id) := by
    rw [hrenamed, hnext.renamed, carrying, carrying, mapTables, mapTables, List.map_map,
      List.map_map]
    rfl
  have hplaced : placed' = placed := by
    rw [canvas_reconcile hnext'.result, canvas_reconcile hnext.result]
    exact Canvas.arranged_arranged hnextValid.ids hsame canvas step step'
  refine ⟨next', hplaced ▸ hnext'.result, ?_⟩
  rw [SameUpToOrder, hrenamed, hnext.renamed]
  refine List.forall₂_map_left_iff.mpr (List.forall₂_map_right_iff.mpr ?_)
  refine List.forall₂_same.mpr fun u _ => ⟨rfl, ?_⟩
  rw [← hnext.renamed]
  exact (h.pendingJoins_perm.flatMap_right _).append_left _

/-- A text with the two tables of `usersWithPosts`, which has a pending join as well: a foreign key
between them and one that becomes a junction table. -/
def readPostsSource : String :=
  "entity User \x7b id uuid pk best uuid fk -> Post.id \x7d
  entity Post \x7b id uuid pk readers uuid fk -> User.id [many_to_many] \x7d"

/-- The text is submitted twice to a schema with a pending join, which is put back both times. -/
theorem readPosts_again : usersWithPosts.validate = .ok () ∧ ∃ parsed rest next placed again rest',
    Source.compile readPostsSource ⟨"d", 0⟩ = (.ok parsed, rest) ∧
    usersWithPosts.reconcile .empty parsed (.zero false) = .ok (next, placed) ∧
    Source.compile readPostsSource ⟨"e", 0⟩ = (.ok again, rest') ∧
    next.pendingJoins = usersWithPosts.pendingJoins ∧
    ∃ next', next.reconcile placed again (.zero false) = .ok (next', placed) ∧
      next'.SameUpToOrder next := by
  have hvalidate : usersWithPosts.validate = .ok () := ok_of_toOption (by decide +kernel)
  have hfresh : ∀ {ids : IdSupply} {schema : Schema} {c : Char}, ids.stem.toList = [c] →
      (∀ text ∈ schema.collect Table.idTexts, text.toList.head? ≠ some c) → ids.FreshFor schema := by
    intro ids schema c hstem htexts k hk
    refine htexts _ hk ?_
    rw [IdSupply.text, String.toList_append, hstem]
    rfl
  -- what the first submission gives has no id that starts like those of the second supply
  have hfirst : ((Source.compile readPostsSource ⟨"d", 0⟩).1.toOption.bind fun parsed =>
      (usersWithPosts.reconcile .empty parsed (.zero false)).toOption).map (fun built =>
        built.1.pendingJoins = usersWithPosts.pendingJoins &&
          (built.1.collect Table.idTexts).all (·.toList.head? ≠ some 'e')) = some true := by
    decide +kernel
  obtain ⟨built, hbuilt, hproperties⟩ := Option.map_eq_some_iff.mp hfirst
  obtain ⟨parsed, hparsed, hreconciled⟩ := Option.bind_eq_some_iff.mp hbuilt
  rw [Bool.and_eq_true, decide_eq_true_eq, List.all_eq_true] at hproperties
  have hcompile : Source.compile readPostsSource ⟨"d", 0⟩ = (.ok parsed, _) :=
    Prod.ext (ok_of_toOption hparsed) rfl
  obtain ⟨n, hcompiled⟩ := Source.compile_compiled hcompile
  have hnew : parsed.FreshFor usersWithPosts :=
    (hfresh (c := 'd') (by decide +kernel) (by decide +kernel)).of_drawn hcompiled.drawn
  obtain ⟨next, placed, hnext, hagain⟩ := reconcile_again hvalidate hcompile hnew .empty (.zero false)
  obtain rfl : built = (next, placed) :=
    Except.ok.inj ((ok_of_toOption hreconciled).symm.trans hnext)
  obtain ⟨again, rest', hcompile', hsame⟩ := hagain ⟨"e", 0⟩ (.zero false)
  obtain ⟨n', hcompiled'⟩ := Source.compile_compiled hcompile'
  have hnew' : again.FreshFor next :=
    (hfresh (c := 'e') (by decide +kernel) fun text ht => by
      simpa using hproperties.2 text ht).of_drawn hcompiled'.drawn
  exact ⟨hvalidate, parsed, _, next, placed, again, rest', hcompile, hnext, hcompile',
    hproperties.1, hsame hnew'⟩

end Schema

end ErModel
