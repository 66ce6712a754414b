import ErModel.Proofs.MirrorRuns

/-!
# What compiles is complete

A foreign key of a text may be many-to-many. Then it is no column: its join is pending, and waits
for a junction table. Every pending join of a linked document waits so, and the junction table that
is made for one of them drops it and declares nothing that would be pending. So in the end there is
no pending join, each join is on a column and refers to a column, and the mirrors are those that the
joins ask for.
-/

namespace ErModel

/-- Nothing is left to be decided: names tell tables and columns apart, each join is on a foreign
key column and refers to a column, and each join between two tables has its mirror. -/
structure Schema.Complete (schema : Schema) : Prop where
  valid : schema.validate = .ok ()
  tableNames : (schema.tables.map (·.name)).Nodup
  columnNames : ∀ t ∈ schema.tables, (t.columns.map (·.name)).Nodup
  pending : schema.pendingJoins = []
  carried : ∀ o ∈ schema.owningJoins, ∃ column ∈ o.holder.columns,
    o.column = some column ∧ column.foreignKey = some o.join
  references : ∀ o ∈ schema.owningJoins, ∃ peer ∈ schema.tables, ∃ key ∈ peer.columns,
    o.join.target = some ⟨peer.id, some key.id⟩
  kind : ∀ o ∈ schema.owningJoins, o.join.kind ≠ .manyToMany
  mirrored : ∀ o ∈ schema.owningJoins, o.join.isSelfJoin = false →
    ∃ peer, schema.mirrors o.join.id = [(peer, o.join.mirror)] ∧ o.join.peer? = some peer.id
  unmirrored : ∀ o ∈ schema.owningJoins, o.join.isSelfJoin = true → schema.mirrors o.join.id = []

namespace Schema

variable {schema next : Schema} {ids : IdSupply}

/-! ## Nothing is pending -/

/-- A junction table takes the place of one pending join, and brings none. -/
theorem pendingJoins_junction {join : JoinId} {declaring table : TableId} {config : JoinConfig}
    (hj : schema.synthesizeJunction ids join declaring config = .ok (next, table)) :
    next.pendingJoins = schema.pendingJoins.filter (·.id ≠ join) := by
  obtain ⟨hv, a, b, junction, toA, toB, -, -, ha, hb, hlinks, hnext⟩ :=
    synthesizeJunction_eq_ok hj
  have hnew := junction_new hv hnext
  have hmirrors : ∀ m ∈ [(a.id, toA.mirror), (b.id, toB.mirror)], m.2.source ≠ m.1 := by
    rw [List.forall_mem_cons, List.forall_mem_cons]
    refine ⟨?_, ?_, by simp⟩
    · exact hlinks.sourceA ▸ hnew a (mem_of_table? ha).1
    · exact hlinks.sourceB ▸ hnew b (mem_of_table? hb).1
  have hplaced := Source.pendingJoins_placeMirrors (schema.strip join) hmirrors
  rw [pendingJoins_eq, pendingJoins_eq, hnext, collect_append, hlinks.pending, List.append_nil]
  refine Eq.trans hplaced ?_
  rw [strip, collect_mapTables, filter_collect]
  exact collect_congr fun t _ => Table.pendingJoins_strip t join

end Schema

namespace Source

/-- Once the junction tables are made, no join is pending of those that waited for one. -/
theorem makeJunctions_settles {schema next : Schema} {ids : IdSupply} {deferred : List Deferred}
    (hkinds : ∀ d ∈ deferred, d.config.kind = .manyToMany)
    (hm : makeJunctions ids schema deferred = .ok next) :
    next.pendingJoins = schema.pendingJoins.filter (·.id ∉ deferred.map (·.join)) := by
  induction deferred generalizing schema ids with
  | nil =>
      cases hm
      exact (List.filter_eq_self.mpr (by simp)).symm
  | cons d rest ih =>
      rw [List.forall_mem_cons] at hkinds
      rw [makeJunctions] at hm
      split at hm
      · rename_i middle configured hc
        obtain ⟨declaring, -, ⟨-, table, hj⟩ | ⟨hne, -⟩⟩ := Schema.configureJoin_eq_ok hc
        · rw [ih hkinds.2 hm, Schema.pendingJoins_junction hj, List.filter_filter]
          refine List.filter_congr fun j _ => ?_
          simp [not_or, Bool.and_comm]
        · -- what waits is many-to-many, so it has no other way to go
          exact absurd hkinds.1 hne
      · cases hm

/-- The joins that are pending in a linked document wait for their junction tables. -/
theorem Linking.Sound.pending_waits {ids : IdSupply} {n : Nat} {linking : Linking}
    (h : linking.Sound ids n) {join : Join} (hj : join ∈ linking.schema.pendingJoins) :
    join.id ∈ linking.deferred.map (·.join) := by
  have hplaced := pendingJoins_placeMirrors linking.bare fun m hm => (h.mirrors m hm).1
  rw [Schema.pendingJoins_eq, show linking.schema.collect Table.pendingJoins = _ from hplaced] at hj
  exact h.waiting.mem_iff.mp (List.mem_map.mpr ⟨join, hj, rfl⟩)

/-- When all junction tables of a linked document are made, nothing is pending. -/
theorem Linking.Sound.none_pending {linking : Linking} {ids ids' : IdSupply} {n : Nat}
    (h : linking.Sound ids n) {schema : Schema}
    (hm : makeJunctions ids' linking.schema linking.deferred = .ok schema) :
    schema.pendingJoins = [] := by
  rw [makeJunctions_settles h.deferred hm]
  refine List.filter_eq_nil_iff.mpr fun join hj => ?_
  simpa using h.pending_waits hj

theorem compile_pendingJoins {source : String} {ids rest : IdSupply} {parsed : Schema}
    (h : compile source ids = (.ok parsed, rest)) : parsed.pendingJoins = [] := by
  obtain ⟨document, tables, linking, -, hdistinct, htables, hlinking, -, hmade⟩ := compile_eq_ok h
  exact (sound_of_linkEntities hdistinct htables hlinking).none_pending hmade

end Source

/-! ## All joins are decided -/

namespace Schema

variable {schema : Schema}

/-- Where nothing is pending, every join is on a column. -/
theorem carried_of_none_pending (h : schema.pendingJoins = []) {o : OwnedJoin}
    (ho : o ∈ schema.owningJoins) : ∃ column ∈ o.holder.columns,
    o.column = some column ∧ column.foreignKey = some o.join := by
  obtain ⟨-, hcolumn | ⟨hnone, -⟩⟩ := mem_owningJoins ho
  · exact hcolumn
  · have hpending : o.join ∈ schema.pendingJoins := mem_pendingJoins.mpr ⟨o.holder, hnone ▸ ho⟩
    rw [h] at hpending
    cases hpending

/-- A join on a column refers to a column, and is not many-to-many. -/
theorem target_of_carried (hv : schema.Valid) {o : OwnedJoin} (ho : o ∈ schema.owningJoins)
    {column : Column} (hc : o.column = some column) :
    o.join.kind ≠ .manyToMany ∧ ∃ peer ∈ schema.tables, ∃ key ∈ peer.columns,
      o.join.target = some ⟨peer.id, some key.id⟩ := by
  have hsound := hv.owners o ho
  have hfits := hsound.fits (by rw [OwnedJoin.isConfigured, hc]; rfl)
  rw [Join.fitsForeignKey, Bool.and_eq_true] at hfits
  refine ⟨by simpa using hfits.2, ?_⟩
  cases htarget : o.join.target with
  | none => simp [htarget] at hfits
  | some target =>
      have hsome : target.column.isSome = true := by simpa [htarget] using hfits.1
      obtain ⟨key, hkey⟩ := Option.isSome_iff_exists.mp hsome
      obtain ⟨peer, hpeer, hcolumn⟩ := hsound.target target htarget
      obtain ⟨found, hfound⟩ := Option.isSome_iff_exists.mp (hcolumn key hkey)
      obtain ⟨hmem, hid⟩ := mem_of_table? hpeer
      have hkeyId : found.id = key := by simpa using List.find?_some hfound
      refine ⟨peer, hmem, found, List.mem_of_find?_eq_some hfound, ?_⟩
      rw [hid, hkeyId, ← hkey]

/-- Where mirrors are in their places, they are there for the joins between two tables. -/
theorem mirrors_of_owningJoin (hv : schema.Valid) (hp : schema.MirrorsPlaced) {o : OwnedJoin}
    (ho : o ∈ schema.owningJoins) :
    (o.join.isSelfJoin = false →
      ∃ peer, schema.mirrors o.join.id = [(peer, o.join.mirror)] ∧
        o.join.peer? = some peer.id) ∧
    (o.join.isSelfJoin = true → schema.mirrors o.join.id = []) := by
  have hmem : (o.holder.id, o.join) ∈ schema.owners :=
    owners_eq schema ▸ List.mem_map.mpr ⟨o, ho, rfl⟩
  obtain ⟨target, ht⟩ := Option.isSome_iff_exists.mp (hp.targets _ hmem)
  have hself : o.join.isSelfJoin = decide (target.table = o.holder.id) := by
    rw [Join.isSelfJoin, Join.peer?, ht, (hv.owners o ho).source]
    simp
  have hmirrors := mirrors_of_owner hv hp hmem
  rw [hself, decide_eq_false_iff_not, decide_eq_true_eq]
  refine ⟨fun hne => ?_, fun he => ?_⟩
  · rw [wantedMirror?_other ht hne] at hmirrors
    obtain ⟨⟨peer, mirror⟩, hone, hpair⟩ := List.map_eq_singleton_iff.mp hmirrors
    obtain ⟨hid, rfl⟩ := Prod.mk.inj hpair
    refine ⟨peer, hone, ?_⟩
    rw [Join.peer?, ht, Option.map_some, ← hid]
  · rw [wantedMirror?_self ht he] at hmirrors
    exact List.map_eq_nil_iff.mp hmirrors

end Schema

namespace Source

/-- **What compiles is complete.** -/
theorem compile_complete {source : String} {ids rest : IdSupply} {parsed : Schema}
    (h : compile source ids = (.ok parsed, rest)) : parsed.Complete := by
  obtain ⟨n, hcompiled⟩ := compile_compiled h
  have hpending := compile_pendingJoins h
  have hv := hcompiled.valid
  refine ⟨Schema.validate_iff.mpr hv, hv.names, hcompiled.columnNames, hpending, ?_, ?_, ?_, ?_, ?_⟩
  · intro o ho
    exact Schema.carried_of_none_pending hpending ho
  · intro o ho
    obtain ⟨column, -, hc, -⟩ := Schema.carried_of_none_pending hpending ho
    exact (Schema.target_of_carried hv ho hc).2
  · intro o ho
    obtain ⟨column, -, hc, -⟩ := Schema.carried_of_none_pending hpending ho
    exact (Schema.target_of_carried hv ho hc).1
  · intro o ho
    exact (Schema.mirrors_of_owningJoin hv hcompiled.placed ho).1
  · intro o ho
    exact (Schema.mirrors_of_owningJoin hv hcompiled.placed ho).2

/-- Posts answer posts and share tags, which are declared further down. -/
def taggedPostsSource : String :=
  "entity Post \x7b id uuid pk parent uuid fk -> Post.id
    tags uuid fk -> Tag.id [many_to_many] \x7d
  entity Tag \x7b id uuid pk owner uuid fk -> Post.id \x7d"

/-- One foreign key becomes a junction table, and two stay columns. -/
theorem taggedPosts_complete : ∃ parsed rest,
    compile taggedPostsSource ⟨"t", 0⟩ = (.ok parsed, rest) ∧
    parsed.tables.map (·.name) = ["Post", "Tag", "PostTag"] ∧ parsed.Complete := by
  have hnames : (compile taggedPostsSource ⟨"t", 0⟩).1.toOption.map (·.tables.map (·.name)) =
      some ["Post", "Tag", "PostTag"] := by decide +kernel
  obtain ⟨parsed, hparsed, hnames⟩ := Option.map_eq_some_iff.mp hnames
  have hcompile : compile taggedPostsSource ⟨"t", 0⟩ = (.ok parsed, _) :=
    Prod.ext (ok_of_toOption hparsed) rfl
  exact ⟨parsed, _, hcompile, hnames, compile_complete hcompile⟩

end Source

end ErModel
