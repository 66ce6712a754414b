import ErModel.Proofs.ClosingUp
import ErModel.Proofs.Constructing
import ErModel.Proofs.KeptIds
import ErModel.Proofs.Resubmitting

/-!
# A many-to-many key is an edit

A many-to-many key of a document says what two edits do to the schema of the document without the key:
its two tables are connected, and the join is configured as the key says. The junction table of the
key is one among others in the first case, and comes behind all of them in the second. As neither is
in the way of the other, the difference is one of ids and of order.
-/

namespace ErModel

-- Ids are counted as in the definition of `Document.tableIdCount`.
attribute [local instance (1001)] Zero.ofOfNat0

theorem Table.junctionKey?_of_withoutJoins {t u : Table} (h : t.withoutJoins = u.withoutJoins)
    (named : Option JunctionColumn) : t.junctionKey? named = u.junctionKey? named := by
  show t.withoutJoins.junctionKey? named = u.withoutJoins.junctionKey? named
  rw [h]

namespace Schema

variable {schema next : Schema} {ids ids' base : IdSupply} {n : Nat}

/-! ## Junction tables without a join -/

/-- A junction table does not depend on the joins of its sides. -/
theorem junctionBetween_of_withoutJoins {a a' b b' : Table} (ha : a.withoutJoins = a'.withoutJoins)
    (hb : b.withoutJoins = b'.withoutJoins) (config : JoinConfig) (aKey bKey : Column) :
    junctionBetween ids config a b aKey bKey = junctionBetween ids config a' b' aKey bKey := by
  show junctionBetween ids config a.withoutJoins b.withoutJoins aKey bKey =
    junctionBetween ids config a'.withoutJoins b'.withoutJoins aKey bKey
  rw [ha, hb]

/-- Records that are dropped before junction tables are put into a schema are dropped with those that
the junction tables replace. -/
theorem withJunctions_clearAll (schema : Schema) (first joins : List JoinId)
    (made : List (Table × Join × Join)) :
    (schema.mapTables (·.clearAll first)).withJunctions joins made =
      schema.withJunctions (first ++ joins) made := by
  have hclear : (schema.mapTables (·.clearAll first)).mapTables (·.clearAll joins) =
      schema.mapTables (·.clearAll (first ++ joins)) := by
    refine congrArg Schema.mk ?_
    rw [mapTables, List.map_map]
    refine List.map_congr_left fun t _ => ?_
    rw [Function.comp_apply, Table.clearAll, Table.clearAll, Table.clearAll, List.filter_filter]
    refine congrArg (fun records => { t with joins := records }) (List.filter_congr fun j _ => ?_)
    simp [Bool.and_comm]
  rw [withJunctions, withJunctions, hclear]

/-- One of the junction tables may as well come behind the others, into a schema without its join. -/
theorem content_withJunctions_last (schema : Schema) {joins joins' : List JoinId} {join : JoinId}
    {made made' : List (Table × Join × Join)} {last : Table × Join × Join}
    (hjoins : joins.Perm (joins' ++ [join])) (hmade : made.Perm (made' ++ [last]))
    (hplain : ∀ m ∈ made', m.1.joins = [])
    (hapart : ∀ m ∈ made', ∀ side ∈ sideMirrors last, side.1 ≠ m.1.id) :
    (schema.withJunctions joins made).content =
      (((schema.mapTables (·.clearAll [join])).withJunctions joins' made').withJunctions []
        [last]).content := by
  have hlast : ∀ m ∈ made', ∀ side ∈ [last].flatMap sideMirrors, side.1 ≠ m.1.id := by
    rw [List.flatMap_singleton]
    exact hapart
  rw [withJunctions_append hplain (fun _ _ => List.not_mem_nil) hlast, withJunctions_clearAll,
    List.append_nil]
  exact content_withJunctions (hjoins.trans (List.perm_append_singleton _ _)) hmade rfl

theorem bareTables_clearAll (schema : Schema) (joins : List JoinId) :
    (schema.mapTables (·.clearAll joins)).bareTables = schema.bareTables := by
  rw [bareTables, bareTables, mapTables, List.map_map]
  rfl

/-- A join gets the junction table that it gets where others are not pending. -/
theorem Makes.clearAll {waiting : Source.Deferred × Nat} {made : Table × Join × Join}
    (h : schema.Makes ids waiting made) {joins : List JoinId} (hne : waiting.1.join ∉ joins) :
    (schema.mapTables (·.clearAll joins)).Makes ids waiting made := by
  obtain ⟨a, ha, b, hb, aKey, bKey, ⟨o, ho, hjoin, haid⟩, hmakes⟩ := h
  obtain ⟨t, ht, hid, hj⟩ := mem_owners.mp ho
  have howner : o ∈ (schema.mapTables (·.clearAll joins)).owners := by
    refine mem_owners.mpr ⟨_, List.mem_map.mpr ⟨t, ht, rfl⟩, hid, ?_⟩
    rcases List.mem_append.mp hj with hj | hj
    · exact List.mem_append_left _ hj
    · obtain ⟨hmem, hsource⟩ := List.mem_filter.mp hj
      refine List.mem_append_right _ (List.mem_filter.mpr ⟨List.mem_filter.mpr ⟨hmem, ?_⟩, hsource⟩)
      simpa [hjoin] using hne
  exact ⟨a, bareTables_clearAll schema joins ▸ ha, b, bareTables_clearAll schema joins ▸ hb, aKey,
    bKey, ⟨o, howner, hjoin, haid⟩, hmakes⟩

/-- A junction table that is still to be made is none of the tables. -/
theorem AwaitsJunctions.tableId_ne {deferred : List Source.Deferred}
    (h : schema.AwaitsJunctions ids n deferred) {k : Nat} (hk : n ≤ k) {t : Table}
    (ht : t ∈ schema.tables) : (ids.skip k).tableId 0 ≠ t.id := by
  obtain ⟨i, rfl⟩ := Nat.exists_eq_add_of_le hk
  have hne := h.unusedIn.texts.tableId_ne i ht
  rwa [IdSupply.tableId_skip] at hne ⊢

/-- Once all junction tables are made, the joins that are new are declared by them. -/
theorem AwaitsJunctions.made {deferred : List Source.Deferred}
    (h : schema.AwaitsJunctions ids n deferred)
    (hm : Source.makeJunctions (ids.skip n) schema deferred = .ok next) :
    next.AwaitsJunctions ids (n + (deferred.map fun _ => 4).sum) [] ∧
      ∀ o ∈ next.owners, o ∈ schema.owners ∨
        ∃ k, n ≤ k ∧ ∃ table m, o.2.id = .nth (ids.tableId k) table m := by
  induction deferred generalizing schema n with
  | nil =>
      cases hm
      exact ⟨h, fun o ho => Or.inl ho⟩
  | cons d rest ih =>
      obtain ⟨middle, configured, hc, hm⟩ := Source.makeJunctions_cons_iff.mp hm
      obtain ⟨hstep, -⟩ := h.step hc
      rw [IdSupply.skip_skip] at hm
      obtain ⟨hnext, howners⟩ := ih hstep hm
      rw [Nat.add_assoc, ← List.sum_cons] at hnext
      refine ⟨hnext, fun o ho => ?_⟩
      rcases howners o ho with hold | ⟨k, hk, hnew⟩
      · obtain ⟨declaring, table, hj⟩ := h.synthesized hc
        obtain ⟨made, howners, hmade⟩ := Source.owners_junction hj
        rw [howners] at hold
        rcases List.mem_append.mp hold with hold | hnew
        · exact Or.inl (List.mem_filter.mp hold).1
        · obtain ⟨target, m, -, -, hid⟩ := hmade o hnew
          exact Or.inr ⟨n, Nat.le_refl n, target.table, m, ids.tableId_skip n 0 ▸ hid⟩
      · exact Or.inr ⟨k, by omega, hnew⟩

/-! ## Declaring a join and giving it its junction table -/

section

variable {join : Join} {target : JoinTarget}

theorem bareTables_declare (schema : Schema) (join : Join) :
    (schema.declare join).bareTables = schema.bareTables := sameTables_declare schema join

/-- A join that has just been declared is pending. -/
theorem pending_of_declare (hv : schema.Valid) (ht : join.target = some target) {t : Table}
    (hmem : t ∈ schema.tables) (hs : join.source = t.id) :
    join ∈ (schema.declare join).pendingJoins := by
  rw [declare_eq hv.ids ht]
  have hrecord : join ∈ t.joins ++ [join].flatMap (·.recordsOn t.id) := by
    refine List.mem_append_right _ ?_
    rw [List.flatMap_singleton, Join.recordsOn, if_pos hs]
    exact List.mem_singleton_self join
  exact mem_pendingJoins.mpr
    ⟨_, mem_owningJoins_of_pending (List.mem_map.mpr ⟨t, hmem, rfl⟩) hrecord hs⟩

/-- What is not in use once a join is declared was not in use before. -/
theorem unusedIn_of_declare (ht : join.target = some target)
    (hs : (schema.table? join.source).isSome = true) (h : ids.UnusedIn (schema.declare join)) :
    ids.UnusedIn schema := by
  refine ⟨?_, fun o ho table m => ?_⟩
  · have htexts : (schema.declare join).collect Table.idTexts = schema.collect Table.idTexts := by
      rw [idTexts_eq, idTexts_eq]
      exact congrArg (List.flatMap Table.idTexts) (bareTables_declare schema join)
    have hfresh := h.texts
    rwa [IdSupply.FreshFor, htexts] at hfresh
  · have hmem : (o.holder.id, o.join) ∈ (schema.declare join).owners :=
      (owners_declare ht hs).mem_iff.mpr (List.mem_cons_of_mem _
        (owners_eq schema ▸ List.mem_map.mpr ⟨o, ho, rfl⟩))
    obtain ⟨o', ho', he⟩ := exists_owned hmem
    rw [show o.join = o'.join from (congrArg Prod.snd he).symm]
    exact h.joins o' ho' table m

/-- A junction table that takes the place of a join that has just been declared is all that comes to
the schema. -/
theorem withJunctions_declare (hv : schema.Valid) (ht : join.target = some target)
    (hnew : schema.containsJoin join.id = false) (made : List (Table × Join × Join)) :
    (schema.declare join).withJunctions [join.id] made = schema.withJunctions [] made := by
  have hclear : (schema.declare join).mapTables (·.clearAll [join.id]) =
      schema.mapTables (·.clearAll []) := by
    rw [declare_eq hv.ids ht]
    refine congrArg Schema.mk ?_
    rw [carrying, mapTables, List.map_map]
    refine List.map_congr_left fun t hmem => ?_
    have hold : t.joins.filter (·.id ∉ [join.id]) = t.joins.filter (·.id ∉ []) := by
      refine List.filter_congr fun j hj => ?_
      obtain ⟨o, ho, hid, -⟩ := owner_of_record hv hmem hj
      have hne : j.id ≠ join.id := by
        intro he
        have hcontained : schema.containsJoin join.id = true :=
          containsJoin_iff.mpr (ownerIds_eq schema ▸ List.mem_map.mpr ⟨o, ho, hid.trans he⟩)
        rw [hnew] at hcontained
        cases hcontained
      simp [hne]
    have hrecords : ([join].flatMap (·.recordsOn t.id)).filter (·.id ∉ [join.id]) = [] := by
      refine List.filter_eq_nil_iff.mpr fun j hj => ?_
      rw [List.flatMap_singleton, Join.recordsOn] at hj
      split_ifs at hj <;> simp_all [Join.mirror]
    rw [Function.comp_apply, Table.clearAll, Table.clearAll, List.filter_append, hold, hrecords,
      List.append_nil]
  rw [withJunctions, withJunctions, hclear]

end

/-- **Two tables are connected, and the join is configured to be many-to-many**: all that comes of it
is the junction table, whose ids may come from any supply that is not in use. -/
theorem connect_configure (hv : schema.Valid) (hp : schema.MirrorsPlaced)
    (hkeyless : ∀ t ∈ schema.tables, t.columns = [] → t.primaryKey = none)
    (hbase : ∀ t ∈ schema.tables, ∃ k, t.id = base.tableId k) (hunused : ids.UnusedIn schema)
    {a b : Table} (ha : a ∈ schema.tables) (hb : b ∈ schema.tables) {c : ColumnId}
    (hc : (b.column? c).isSome = true)
    (hnew : schema.containsJoin (.between a.id b.id) = false) (config : JoinConfig)
    (hkind : config.kind = .manyToMany) (htarget : config.target = ⟨b.id, some c⟩)
    {aKey bKey : Column} (haKey : a.junctionKey? config.joinColumn = some aKey)
    (hbKey : b.junctionKey? config.inverseColumn = some bKey)
    (hname : junctionName config a b ∉ schema.tables.map (·.name)) :
    ∃ declared, schema.connect a.id b.id (some c) config.onDelete config.onUpdate =
        .ok (declared, .between a.id b.id) ∧
      JoinId.between a.id b.id ∈ declared.pendingJoins.map (·.id) ∧
      ∀ ids' : IdSupply, ids'.UnusedIn declared → ∃ next,
        declared.configureJoin ids' (.between a.id b.id) config =
          .ok (next, .junction (ids'.tableId 0)) ∧
        ∃ names : Relabelling, names.Exchanges schema ids ids' ∧
          names.apply (schema.withJunctions [] [junctionBetween ids config a b aKey bKey]) =
            next := by
  have hcolumn : ∀ c', some c = some c' → (b.column? c').isSome = true := by
    rintro _ ⟨⟩
    exact hc
  let join := Join.declared a.id b.id (some c) config.onDelete config.onUpdate
  have ht : join.target = some ⟨b.id, some c⟩ := rfl
  have hs : (schema.table? join.source).isSome = true := table?_isSome_of_mem ha
  obtain ⟨hvalid, hconnect⟩ := connect_declares hv ha hb hcolumn hnew config.onDelete
    config.onUpdate (rfl : join = _)
  have howner : (a.id, join) ∈ (schema.declare join).owners :=
    (owners_declare ht hs).mem_iff.mpr List.mem_cons_self
  have hpending : JoinId.between a.id b.id ∈ (schema.declare join).pendingJoins.map (·.id) :=
    List.mem_map.mpr ⟨join, pending_of_declare hv ht ha rfl, rfl⟩
  refine ⟨_, hconnect, hpending, fun ids' hunused' => ?_⟩
  have hunused₀ : (ids'.skip 0).UnusedIn (schema.declare join) := hunused'
  obtain ⟨names, hnames⟩ := Relabelling.exists_exchanges hunused
    (unusedIn_of_declare ht hs hunused') hbase
  have hbare : ∀ {t}, t ∈ schema.tables → t.withoutJoins ∈ (schema.declare join).bareTables :=
    fun ht => bareTables_declare schema join ▸ List.mem_map.mpr ⟨_, ht, rfl⟩
  have hmakes : (schema.declare join).Makes ids' (⟨a.name, .between a.id b.id, config⟩, 0)
      (junctionBetween ids' config a b aKey bKey) := by
    refine ⟨_, hbare ha, _, hbare hb, aKey, bKey, ⟨_, howner, rfl, rfl⟩, ?_, ?_, haKey, hbKey, rfl⟩
    · rw [htarget]
      rfl
    · rw [htarget]
      exact hcolumn
  have hfree : junctionName config a b ∉ (schema.declare join).tables.map (·.name) :=
    (sameTables_declare schema join).names ▸ hname
  refine ⟨_, configureJoin_of_makes hvalid hunused₀ hpending hkind hmakes hfree, names, hnames, ?_⟩
  have htargets : names.onTarget config.target = config.target := by
    rw [htarget]
    exact hnames.keeps.onTarget (table?_of_mem hv.ids hb) hcolumn
  have hexchanged := hnames.withJunction hv hp hkeyless htargets (List.mem_map.mpr ⟨a, ha, rfl⟩)
    (List.mem_map.mpr ⟨b, hb, rfl⟩) (Table.mem_of_junctionKey? haKey)
    (Table.mem_of_junctionKey? hbKey)
  exact hexchanged.trans (withJunctions_declare hv ht hnew _).symm

end Schema

namespace Source

variable {ids ids' : IdSupply} {document : Document} {described : List (Entity × Table)}
  {linking : Linking}

/-! ## The key -/

section

variable (h : LinksUp ids (places Entity.idCount 0 document.entities) described linking)
  (hd : document.Distinct) {entity : String} {reference : Reference} {choice : ReferenceChoice}
  {a b : Table} {c : Column} (hwaits : linking.Waits entity reference choice a b c)

include h hd

theorem LinksUp.bareTables : linking.schema.bareTables = linking.bare.bareTables := by
  obtain ⟨-, -, htables⟩ := placeMirrors (h.sound hd).mirrors
  exact htables

theorem LinksUp.mem_bareTables (names : Relabelling) {t : Table} (ht : t ∈ linking.tables) :
    (names.onTable t).withoutJoins ∈ (names.apply linking.schema).bareTables := by
  have hmem : t.withoutJoins ∈ linking.schema.bareTables :=
    h.bareTables hd ▸ List.mem_map.mpr ⟨t, ht, rfl⟩
  obtain ⟨u, hu, he⟩ := List.mem_map.mp hmem
  exact List.mem_map.mpr ⟨names.onTable u, List.mem_map.mpr ⟨u, hu, rfl⟩,
    congrArg names.onTable he⟩

include hwaits

/-- The junction table of the key may be made after the others. -/
theorem LinksUp.deferred_perm : linking.deferred.Perm
    ((linking.forget (a.id, b.id)).deferred ++ [reference.deferred choice entity a b c]) := by
  have hawaits := (h.sound hd).awaitsJunctions h.valid
  refine (perm_cons_filter hawaits.joins hwaits.deferred).trans ?_
  refine .trans (.of_eq ?_) (List.perm_append_singleton _ _).symm
  refine congrArg _ (List.filter_congr fun d _ => decide_eq_decide.mpr ?_)
  simp [Reference.deferred]

/-- The joins that wait are that of the key and those that wait without the key. -/
theorem LinksUp.joins_perm (names : Relabelling) :
    ((linking.deferred.map (·.join)).map names.join).Perm
      (((linking.forget (a.id, b.id)).relabel names).deferred.map (·.join) ++
        [names.join (.between a.id b.id)]) := by
  have hmoved := ((h.deferred_perm hd hwaits).map (·.join)).map names.join
  rw [List.map_append, List.map_append, List.map_map, List.map_map] at hmoved
  have hleft : ((linking.forget (a.id, b.id)).relabel names).deferred.map (·.join) =
      (linking.forget (a.id, b.id)).deferred.map (names.join ∘ (·.join)) := List.map_map
  rw [hleft, List.map_map]
  exact hmoved

/-- The junction table of the key is between the tables that the key relates, and they have columns
that it can refer to. -/
theorem LinksUp.makes_waits {names : Relabelling} {place : Nat → Nat}
    (hnames : names.Moves place ids ids') {k : Nat} {made : Table × Join × Join}
    (hm : (names.apply linking.schema).Makes ids'
      (names.onDeferred (reference.deferred choice entity a b c), k) made) :
    let config := reference.junctionConfig choice (names.onTarget ⟨b.id, some c.id⟩)
    ∃ aKey bKey, (names.onTable a).junctionKey? config.joinColumn = some aKey ∧
      (names.onTable b).junctionKey? config.inverseColumn = some bKey ∧
      made = Schema.junctionBetween (ids'.skip k) config (names.onTable a) (names.onTable b)
        aKey bKey := by
  have hsound := h.sound hd
  have hids : ((names.apply linking.schema).bareTables.map (·.id)).Nodup := by
    have hvalid := h.valid.renumbered hnames hsound.placed
    rw [Schema.ids_bareTables]
    exact hvalid.ids
  obtain ⟨a', ha', b', hb', aKey, bKey, ⟨o, ho, hjoin, haid⟩, hbid, -, haKey, hbKey, rfl⟩ := hm
  -- the table that declares the join is that of the entity
  rw [Schema.owners_relabel h.valid fun _ _ _ _ he => hnames.tables he] at ho
  obtain ⟨owner, howner, rfl⟩ := List.mem_map.mp ho
  have hsource : owner.1 = a.id := by
    obtain ⟨howners, -, -⟩ := placeMirrors hsound.mirrors
    have howner : owner ∈ linking.bare.owners := howners ▸ howner
    obtain ⟨hsource, m, target, -, hid⟩ := hsound.sources owner howner
    obtain ⟨t, ht, htid, -⟩ := Schema.mem_owners.mp howner
    obtain ⟨i, hi⟩ := hsound.drawn.tableId ht
    obtain ⟨i', hi'⟩ := h.drawn hd hwaits.source
    have hid : JoinId.nth a.id b.id 0 = .nth owner.1 target.table m :=
      (hnames.joins hjoin).symm.trans (hsource ▸ hid)
    rw [← htid, hi, hi'] at hid
    rw [← htid, hi, hi', JoinId.nth_source_inj hid]
  obtain rfl : (names.onTable a).withoutJoins = a' :=
    eq_of_key_eq hids (h.mem_bareTables hd names hwaits.source) ha'
      ((congrArg names.table hsource.symm).trans haid)
  obtain rfl : (names.onTable b).withoutJoins = b' :=
    eq_of_key_eq hids (h.mem_bareTables hd names hwaits.target) hb' hbid.symm
  exact ⟨aKey, bKey, haKey, hbKey, rfl⟩

end

/-! ## What is left for the edits -/

/-- The ids of one property are taken out, and the blocks of the junction tables close up, that of
the property behind the others. -/
theorem exists_moves_closing {waiting rest : List Deferred} {key : Deferred}
    (hperm : waiting.Perm (rest ++ [key])) {gap n : Nat} (hgap : gap ≤ n) (ids ids' : IdSupply) :
    ∃ (names : Relabelling) (place : Nat → Nat), names.Moves place ids ids' ∧
      ClosesUp place gap (n + 1) ∧
      (∀ w ∈ places (fun _ => 4) (n + 1) waiting, ∀ i < 4, place (w.2 + i) = place w.2 + i) ∧
      ((names.onDeferred key, n + ((rest.map names.onDeferred).map fun _ => 4).sum) ::
          places (fun _ => 4) n (rest.map names.onDeferred)).Perm
        ((places (fun _ => 4) (n + 1) waiting).map (Prod.map names.onDeferred place)) := by
  obtain ⟨place, hplace, hcloses, hblocks, hplaces⟩ :=
    exists_closesUp (fun _ => by decide : ∀ _ : Deferred, 0 < 4) hperm hgap
  obtain ⟨names, hnames⟩ := Relabelling.exists_moves hplace ids ids'
  refine ⟨names, place, hnames, hcloses, hblocks, ?_⟩
  have hmoved := hplaces.map (Prod.map names.onDeferred id)
  have hplaced : (places (fun _ => 4) n (rest ++ [key])).map (Prod.map names.onDeferred id) =
      places (fun _ => 4) n (rest.map names.onDeferred) ++
        [(names.onDeferred key, n + ((rest.map names.onDeferred).map fun _ => 4).sum)] := by
    have hmap : places (fun _ => 4) n ((rest ++ [key]).map names.onDeferred) =
        (places (fun _ => 4) n (rest ++ [key])).map (Prod.map names.onDeferred id) :=
      places_map (fun _ => rfl) n _
    rw [← hmap, List.map_append, places_append]
    rfl
  rw [List.map_map, hplaced] at hmoved
  exact (List.perm_append_singleton _ _).symm.trans hmoved.symm

/-- A schema to which nothing but the junction table of a key is still to come. -/
structure AwaitsKey (start : Schema) (ids : IdSupply) (k : Nat) (entity : String)
    (reference : Reference) (choice : ReferenceChoice) (a b : Table) (c : Column) : Prop where
  compiled : start.AwaitsJunctions ids k []
  keyless : ∀ t ∈ start.tables, t.columns = [] → t.primaryKey = none
  source : a ∈ start.tables
  target : b ∈ start.tables
  column : c ∈ b.columns
  sourceName : a.name = entity
  targetName : b.name = reference.target
  columnName : c.name = reference.column
  new : start.containsJoin (.between a.id b.id) = false
  free : junctionName (reference.junctionConfig choice ⟨b.id, some c.id⟩) a b ∉
    start.tables.map (·.name)

/-- Tables stay what they are beside their joins when junction tables are made. -/
theorem bareTables_made {schema next : Schema} {n : Nat} {deferred : List Deferred}
    (h : schema.AwaitsJunctions ids n deferred)
    (hm : makeJunctions (ids.skip n) schema deferred = .ok next) :
    schema.bareTables ⊆ next.bareTables := by
  obtain ⟨made, -, -, rfl⟩ := (makeJunctions_iff h).mp hm
  rw [Schema.bareTables_withJunctions]
  exact List.subset_append_left _ _

/-- Once all junction tables are made, a join is there only if it has been there before. -/
theorem containsJoin_made {schema next : Schema} {n : Nat} {deferred : List Deferred}
    (h : schema.AwaitsJunctions ids n deferred)
    (hm : makeJunctions (ids.skip n) schema deferred = .ok next) {t : Table}
    (ht : t ∈ schema.tables) {table : TableId} {m : Nat}
    (hnew : ∀ o ∈ schema.owners, o.2.id ≠ .nth t.id table m) :
    next.containsJoin (.nth t.id table m) = false := by
  refine Bool.eq_false_iff.mpr fun hcontained => ?_
  obtain ⟨o, ho, hid⟩ := List.mem_map.mp (Schema.containsJoin_iff.mp hcontained)
  rcases (h.made hm).2 o ho with hold | ⟨k, hk, table', m', hid'⟩
  · exact hnew o hold hid
  · obtain ⟨i, hi, he⟩ := h.compiled.drawn.tableId_lt ht
    rw [he] at hid
    have := JoinId.nth_source_inj (hid.symm.trans hid')
    omega

section

variable {a b : Table} {c : Column} {entity : String} {reference : Reference}
  {choice : ReferenceChoice}
  (h : LinksUp ids (places Entity.idCount 0 document.entities) described linking)
  (hd : document.Distinct) (hwaits : linking.Waits entity reference choice a b c)
  {names : Relabelling} {place : Nat → Nat} (hnames : names.Moves place ids ids')

include h hd hwaits hnames

theorem LinksUp.join_moved :
    names.join (.between a.id b.id) = .between (names.table a.id) (names.table b.id) := by
  obtain ⟨i, hi⟩ := h.drawn hd hwaits.source
  obtain ⟨i', hi'⟩ := h.drawn hd hwaits.target
  rw [hi, hi', hnames.tableId, hnames.tableId]
  exact hnames.joinId i i' 0

/-- The schema without the join of the key. -/
theorem LinksUp.schema_forget :
    let join := names.join (.between a.id b.id)
    ((linking.forget (a.id, b.id)).relabel names).schema =
        (names.apply linking.schema).mapTables (·.clearAll [join]) ∧
      ∀ o ∈ ((linking.forget (a.id, b.id)).relabel names).schema.owners, o.2.id ≠ join := by
  have hsound := h.sound hd
  have hpending := (hsound.awaitsJunctions h.valid).waits _ hwaits.deferred
  have hforget : ((linking.forget (a.id, b.id)).relabel names).schema =
      names.apply (linking.schema.mapTables (·.clearAll [.between a.id b.id])) := by
    rw [Linking.schema_relabel hnames.tables, Linking.schema_forget hsound.drawn.ids_nodup]
  refine ⟨hforget.trans (names.apply_clearAll hnames.joins _ _), fun o ho => ?_⟩
  have hstrip : linking.schema.strip (.between a.id b.id) =
      linking.schema.mapTables (·.clearAll [.between a.id b.id]) :=
    Schema.strip_of_uncarried (Schema.owner_of_pending h.valid hpending).2
  rw [hforget, ← hstrip, names.apply_strip hnames.joins] at ho
  have ho : o ∈ ((names.apply linking.schema).stripAll [names.join (.between a.id b.id)]).owners := ho
  rw [Schema.owners_stripAll] at ho
  simpa using (List.mem_filter.mp ho).2

/-- The other junction tables are made where the join of the key is not pending. -/
theorem LinksUp.makes_forget {k : Nat} {made : List (Table × Join × Join)}
    (hm : List.Forall₂ ((names.apply linking.schema).Makes ids')
      (places (fun _ => 4) k ((linking.forget (a.id, b.id)).relabel names).deferred) made) :
    List.Forall₂ (((linking.forget (a.id, b.id)).relabel names).schema.Makes ids')
      (places (fun _ => 4) k ((linking.forget (a.id, b.id)).relabel names).deferred) made := by
  rw [(h.schema_forget hd hwaits hnames).1]
  refine forall₂_imp_mem hm fun w hw m _ hmakes => hmakes.clearAll fun hmem => ?_
  obtain ⟨d, hd, he⟩ := List.mem_map.mp (fst_mem_of_mem_places hw)
  rw [← he] at hmem
  have hjoin : d.join = .between a.id b.id := hnames.joins (List.mem_singleton.mp hmem)
  simpa [hjoin] using (List.mem_filter.mp hd).2

/-- Once all other junction tables are made, that of the key is still to come. -/
theorem LinksUp.awaitsKey {document' : Document} {described' : List (Entity × Table)}
    {linking' : Linking} (hd' : document'.Distinct)
    (h' : LinksUp ids' (places Entity.idCount 0 document'.entities) described' linking')
    (hforget : linking' = (linking.forget (a.id, b.id)).relabel names) {start : Schema}
    (hm : makeJunctions (ids'.skip document'.tableIdCount) linking'.schema linking'.deferred =
      .ok start)
    (hfree : junctionName (reference.junctionConfig choice ⟨b.id, some c.id⟩) a b ∉
      start.tables.map (·.name)) :
    ∃ a' b', a'.withoutJoins = (names.onTable a).withoutJoins ∧
      b'.withoutJoins = (names.onTable b).withoutJoins ∧
      AwaitsKey start ids' (document'.tableIdCount + (linking'.deferred.map fun _ => 4).sum)
        entity reference choice a' b' (names.onColumn c) := by
  have hsound := h'.sound hd'
  have hawaits := hsound.awaitsJunctions h'.valid
  obtain ⟨hschema, hnew⟩ := h.schema_forget hd hwaits hnames
  rw [← hforget] at hschema hnew
  have hbare : ∀ {t}, t ∈ linking.tables →
      (names.onTable t).withoutJoins ∈ linking'.schema.bareTables := by
    intro t ht
    rw [hschema, Schema.bareTables_clearAll]
    exact h.mem_bareTables hd names ht
  have hside : ∀ {t}, t ∈ linking.tables →
      ∃ u ∈ start.tables, u.withoutJoins = (names.onTable t).withoutJoins := fun ht =>
    List.mem_map.mp (bareTables_made hawaits hm (hbare ht))
  obtain ⟨a', ha', hea⟩ := hside hwaits.source
  obtain ⟨b', hb', heb⟩ := hside hwaits.target
  have hida : a'.id = names.table a.id := Table.id_of_withoutJoins hea
  have hidb : b'.id = names.table b.id := Table.id_of_withoutJoins heb
  have hnamea : a'.name = a.name := (Table.name_of_withoutJoins hea).trans rfl
  have hnameb : b'.name = b.name := (Table.name_of_withoutJoins heb).trans rfl
  refine ⟨a', b', hea, heb, (hawaits.made hm).1, ?_, ha', hb', ?_, ?_, ?_, ?_, ?_, ?_⟩
  · exact hsound.keyless h'.valid h'.tables h'.links hm
  · rw [Table.columns_of_withoutJoins heb]
    exact List.mem_map.mpr ⟨c, hwaits.column, rfl⟩
  · exact hnamea.trans hwaits.sourceName
  · exact hnameb.trans hwaits.targetName
  · exact hwaits.columnName
  · obtain ⟨t, ht, het⟩ := List.mem_map.mp (hbare hwaits.source)
    have hidt : t.id = names.table a.id := Table.id_of_withoutJoins het
    rw [h.join_moved hd hwaits hnames, ← hidt] at hnew
    rw [hida, hidb, ← hidt]
    exact containsJoin_made hawaits hm ht (m := 0) hnew
  · rw [junctionName, hnamea, hnameb]
    exact hfree

end

/-- **The document without the key compiles**, and what the key adds to its schema is a junction
table. -/
theorem Document.schema_without (hd : document.Distinct) {entity : Entity}
    (he : entity ∈ document.entities) {property : Property} (hp : property ∈ entity.properties)
    {reference : Reference} (hr : property.reference? = some reference) {choice : ReferenceChoice}
    (hchoice : reference.options.foldlM ReferenceChoice.choose {} = .ok choice)
    (hkind : choice.kind = .manyToMany)
    (honly : ∀ other ∈ entity.properties, ∀ reference', other.reference? = some reference' →
      reference'.target = reference.target → other = property)
    {schema : Schema} (hs : document.schema ids = .ok schema) (ids' : IdSupply) :
    ∃ start k a b c aKey bKey, ∃ names : Relabelling,
      (document.without entity.name property.name).schema ids' = .ok start ∧
      AwaitsKey start ids' k entity.name reference choice a b c ∧
      a.junctionKey? choice.joinColumn = some aKey ∧
      b.junctionKey? (some (choice.inverseColumn.getD
        ⟨foreignKeyName reference.target, reference.column⟩)) = some bKey ∧
      names.Relabels schema ∧
      (names.apply schema).content = (start.withJunctions [] [Schema.junctionBetween (ids'.skip k)
        (reference.junctionConfig choice ⟨b.id, some c.id⟩) a b aKey bKey]).content := by
  obtain ⟨described, linking, h, hm⟩ := schema_iff.mp hs
  have hsound := h.sound hd
  have hawaits := hsound.awaitsJunctions h.valid
  obtain ⟨made, hmakes, hapart, rfl⟩ := (makeJunctions_iff hawaits).mp hm
  obtain ⟨a, b, c, hwaits, hcount, gap, hgap, hwithout⟩ :=
    h.without hd he hp hr hchoice hkind honly
  rw [hcount] at hgap hwithout hmakes
  -- the junction table of the key comes last
  obtain ⟨names, place, hnames, hcloses, hblocks, hwaiting⟩ :=
    exists_moves_closing (h.deferred_perm hd hwaits) (Nat.le_of_lt_succ hgap) ids ids'
  obtain ⟨_, hall, hmade⟩ := forall_makes_moved hnames hawaits.compiled hmakes hblocks hwaiting
  obtain ⟨_, made', hkeyMade, hmakes', rfl⟩ := List.forall₂_cons_left_iff.mp hall
  obtain ⟨aKey, bKey, haKey, hbKey, rfl⟩ := h.makes_waits hd hwaits hnames hkeyMade
  have hcolumns : a.columns ≠ [] := by
    intro hnone
    have hmem := Table.mem_of_junctionKey? haKey
    rw [Relabelling.onTable, hnone] at hmem
    cases hmem
  -- the others are made without it
  obtain ⟨described', h'⟩ := hwithout names place ids' hnames hcloses hcolumns
  have hd' := hd.without entity.name property.name
  have hawaits' := (h'.sound hd').awaitsJunctions h'.valid
  have hmakesLeft := h.makes_forget hd hwaits hnames hmakes'
  have hjoins := h.joins_perm hd hwaits names
  have hschema := (h.schema_forget hd hwaits hnames).1
  generalize hforget : (linking.forget (a.id, b.id)).relabel names = linking'
    at h' hawaits' hmakesLeft hjoins hschema
  rw [show (linking.forget (a.id, b.id)).deferred.map names.onDeferred = linking'.deferred from
    congrArg Linking.deferred hforget] at hmakes' hkeyMade hmade
  have htables : linking'.schema.tables.map (·.name) = linking.schema.tables.map (·.name) := by
    rw [hschema, Relabelling.apply, Schema.mapTables, Schema.mapTables, List.map_map, List.map_map]
    rfl
  obtain ⟨hfree, hnamesLeft⟩ := List.nodup_cons.mp (List.nodup_middle.mp
    (names_nodup_of_made hapart hmade (.of_eq htables)))
  have hstart := (makeJunctions_iff hawaits').mpr ⟨made', hmakesLeft, hnamesLeft, rfl⟩
  obtain ⟨a', b', hea, heb, hkey⟩ := h.awaitsKey hd hwaits hnames hd' h' hforget.symm hstart
    (by rw [Schema.names_withJunctions]; exact hfree)
  obtain ⟨m, hcompiled⟩ := schema_compiled hd hs
  refine ⟨_, _, a', b', names.onColumn c, aKey, bKey, names,
    schema_iff.mpr ⟨described', linking', h', hstart⟩, hkey, ?_, ?_, hnames.relabels hcompiled, ?_⟩
  · exact (Table.junctionKey?_of_withoutJoins hea _).trans haKey
  · exact (Table.junctionKey?_of_withoutJoins heb _).trans hbKey
  · have hmadeLast := hmade.symm.trans (List.perm_append_singleton _ _).symm
    have hlast := Schema.content_withJunctions_last (names.apply linking.schema) hjoins hmadeLast
      (fun m hm => ?_) fun m hm side hside => ?_
    · rw [names.apply_withJunctions hnames.tables hnames.joins, hlast, ← hschema,
        Schema.junctionBetween_of_withoutJoins hea heb]
      have htarget : names.onTarget ⟨b.id, some c.id⟩ = ⟨b'.id, some (names.onColumn c).id⟩ := by
        rw [Table.id_of_withoutJoins heb]
        rfl
      rw [htarget]
    · obtain ⟨w, -, hmakes⟩ := exists_left hmakes' hm
      exact hmakes.shape.2.1
    · obtain ⟨w, hw, hmakes⟩ := exists_left hmakes' hm
      obtain ⟨t, ht, hid⟩ := List.mem_map.mp (hkeyMade.shape.2.2 side hside).1
      have hmem : t.clearAll [names.join (.between a.id b.id)] ∈ linking'.schema.tables :=
        hschema ▸ List.mem_map.mpr ⟨t, ht, rfl⟩
      rw [hmakes.shape.1, ← hid]
      exact (hawaits'.tableId_ne (le_of_mem_places hw) hmem).symm

/-! ## Both ways -/

/-- **A many-to-many key means two edits.** Where a document with such a key compiles, it does so
without the key; then the tables can be connected, and the pending join can be configured as the key
says, with any ids that are not in use. What comes out is the schema of the document with the key, up
to the ids, the order of tables, and the order of the records among the joins of a table. The ids of
joins still follow those of the tables. -/
theorem Document.schema_manyToMany (hd : document.Distinct) {entity : Entity}
    (he : entity ∈ document.entities) {property : Property} (hp : property ∈ entity.properties)
    {reference : Reference} (hr : property.reference? = some reference) {choice : ReferenceChoice}
    (hchoice : reference.options.foldlM ReferenceChoice.choose {} = .ok choice)
    (hkind : choice.kind = .manyToMany)
    (honly : ∀ other ∈ entity.properties, ∀ reference', other.reference? = some reference' →
      reference'.target = reference.target → other = property)
    {schema : Schema} (hs : document.schema ids = .ok schema) (ids' : IdSupply) :
    ∃ start, (document.without entity.name property.name).schema ids' = .ok start ∧
      ∃ a b c, start.tableNamed? entity.name = some a ∧
        start.tableNamed? reference.target = some b ∧
        b.columnNamed? reference.column = some c ∧
        start.containsJoin (.between a.id b.id) = false ∧
        ∃ declared, start.connect a.id b.id (some c.id) choice.onDelete choice.onUpdate =
            .ok (declared, .between a.id b.id) ∧
          JoinId.between a.id b.id ∈ declared.pendingJoins.map (·.id) ∧
          ∀ fresh : IdSupply, fresh.UnusedIn declared → ∃ next configured,
            declared.configureJoin fresh (.between a.id b.id)
              (reference.junctionConfig choice ⟨b.id, some c.id⟩) = .ok (next, configured) ∧
            ∃ names : Relabelling, names.Relabels schema ∧
              (names.apply schema).content = next.content := by
  obtain ⟨start, k, a, b, c, aKey, bKey, names, hstart, hkey, haKey, hbKey, hnames, hcontent⟩ :=
    schema_without hd he hp hr hchoice hkind honly hs ids'
  have hcompiled := hkey.compiled.compiled
  have hv := hcompiled.valid
  have ha : start.tableNamed? entity.name = some a :=
    hkey.sourceName ▸ find?_key hv.names hkey.source
  have hb : start.tableNamed? reference.target = some b :=
    hkey.targetName ▸ find?_key hv.names hkey.target
  have hc : b.columnNamed? reference.column = some c :=
    hkey.columnName ▸ find?_key (hcompiled.columnNames b hkey.target) hkey.column
  have hcolumn : (b.column? c.id).isSome = true :=
    List.find?_isSome.mpr ⟨c, hkey.column, by simp⟩
  obtain ⟨declared, hconnect, hpending, hconfigure⟩ := Schema.connect_configure hv hcompiled.placed
    hkey.keyless (fun t ht => hcompiled.drawn.tableId ht) hkey.compiled.unusedIn hkey.source
    hkey.target hcolumn hkey.new (reference.junctionConfig choice ⟨b.id, some c.id⟩) rfl rfl haKey
    hbKey hkey.free
  refine ⟨start, hstart, a, b, c, ha, hb, hc, hkey.new, declared, hconnect, hpending,
    fun fresh hfresh => ?_⟩
  obtain ⟨_, hnext, names', hnames', rfl⟩ := hconfigure fresh hfresh
  obtain ⟨_, hschema⟩ := schema_compiled hd hs
  refine ⟨_, _, hnext, names.followedBy names', ?_, ?_⟩
  · exact hnames.followedBy (hnames'.relabels hv hcompiled.numbered hkey.compiled.unusedIn.texts
      hkey.source hkey.target) hschema.valid hcontent
  · rw [Relabelling.apply_followedBy]
    exact Schema.content_apply names' hcontent

/-- A supply is not in use where no id starts as its ids do. -/
theorem unusedIn_of_head {schema : Schema} {c : Char} (hstem : ids.stem.toList.head? = some c)
    (htexts : ∀ text ∈ schema.collect Table.idTexts ++ schema.owningJoins.map (·.join.id.text),
      text.toList.head? ≠ some c) : ids.UnusedIn schema := by
  have hhead : ∀ k text, (ids.text k ++ text).toList.head? = some c := by
    intro k text
    rw [IdSupply.text, String.append_assoc, String.toList_append, List.head?_append, hstem]
    rfl
  refine ⟨fun k hk => ?_, fun o ho table n he => ?_⟩
  · have hk' := hhead k ""
    rw [String.append_empty] at hk'
    exact htexts _ (List.mem_append_left _ hk) hk'
  · refine htexts o.join.id.text (List.mem_append_right _ (List.mem_map.mpr ⟨o, ho, rfl⟩)) ?_
    rw [he, JoinId.nth_eq, String.append_assoc, String.append_assoc]
    exact hhead 0 _

/-- Posts share tags: without the key there are posts and tags, and connecting them and configuring
the join gives what the key gives. -/
theorem postTags_manyToMany :
    (Document.mk [postEntity, tagEntity]).Distinct ∧ ∃ schema start declared next : Schema,
      (Document.mk [postEntity, tagEntity]).schema ⟨"t", 0⟩ = .ok schema ∧
      schema.tables.map (·.name) = ["Post", "Tag", "PostTag"] ∧
      ((Document.mk [postEntity, tagEntity]).without "Post" "tags").schema ⟨"u", 0⟩ = .ok start ∧
      start.tables.map (·.name) = ["Post", "Tag"] ∧
      ∃ a b c join configured,
        start.connect a b (some c) .cascade .cascade = .ok (declared, join) ∧
        declared.configureJoin ⟨"j", 0⟩ join ⟨⟨b, some c⟩, .manyToMany, .cascade, .cascade, none,
          none, some ⟨foreignKeyName "Tag", "id"⟩⟩ = .ok (next, configured) ∧
        next.tables.map (·.name) = ["Post", "Tag", "PostTag"] ∧
        ∃ names : Relabelling, names.Relabels schema ∧
          (names.apply schema).content = next.content := by
  have hd : (Document.mk [postEntity, tagEntity]).Distinct := ⟨by decide, by decide⟩
  have honly : ∀ other ∈ postEntity.properties, ∀ reference', other.reference? = some reference' →
      reference'.target = "Tag" → other = .toKey "tags" "Tag" [.kind "many_to_many"] := by
    intro other hother reference' hr htarget
    simp only [postEntity, List.mem_cons, List.not_mem_nil, or_false] at hother
    rcases hother with rfl | rfl | rfl
    · cases hr
    · cases hr
      exact absurd htarget (by decide)
    · rfl
  -- what is computed: the schemas with the key, without it, and once the tables are connected
  have hnames : ((Document.mk [postEntity, tagEntity]).schema ⟨"t", 0⟩).toOption.map
      (·.tables.map (·.name)) = some ["Post", "Tag", "PostTag"] := by decide +kernel
  obtain ⟨schema, hschema, hnames⟩ := Option.map_eq_some_iff.mp hnames
  have hedited : (((Document.mk [postEntity, tagEntity]).without "Post" "tags").schema
      ⟨"u", 0⟩).toOption.bind (fun start => (start.tableNamed? "Post").bind fun a =>
        (start.tableNamed? "Tag").bind fun b => (b.columnNamed? "id").bind fun c =>
          (start.connect a.id b.id (some c.id) .cascade .cascade).toOption.map fun made =>
            (start.tables.map (·.name), (made.1.collect Table.idTexts ++
              made.1.owningJoins.map (·.join.id.text)).all (·.toList.head? ≠ some 'j'),
              (made.1.configureJoin ⟨"j", 0⟩ made.2 ⟨⟨b.id, some c.id⟩, .manyToMany, .cascade,
                .cascade, none, none, some ⟨foreignKeyName "Tag", "id"⟩⟩).toOption.map
                  (·.1.tables.map (·.name)))) =
      some (["Post", "Tag"], true, some ["Post", "Tag", "PostTag"]) := by decide +kernel
  have hmem : Property.toKey "tags" "Tag" [.kind "many_to_many"] ∈ postEntity.properties := by
    simp [postEntity]
  obtain ⟨start, hstart, a, b, c, ha, hb, hc, -, declared, hconnect, -, hconfigure⟩ :=
    Document.schema_manyToMany hd List.mem_cons_self hmem rfl rfl rfl honly
      (ok_of_toOption hschema) ⟨"u", 0⟩
  obtain ⟨start', hstart', hedited⟩ := Option.bind_eq_some_iff.mp hedited
  obtain ⟨a', ha', hedited⟩ := Option.bind_eq_some_iff.mp hedited
  obtain ⟨b', hb', hedited⟩ := Option.bind_eq_some_iff.mp hedited
  obtain ⟨c', hc', hedited⟩ := Option.bind_eq_some_iff.mp hedited
  obtain ⟨made, hmade, hedited⟩ := Option.map_eq_some_iff.mp hedited
  obtain rfl := Except.ok.inj (hstart.symm.trans (ok_of_toOption hstart'))
  obtain rfl := Option.some.inj (ha.symm.trans ha')
  obtain rfl := Option.some.inj (hb.symm.trans hb')
  obtain rfl := Option.some.inj (hc.symm.trans hc')
  obtain rfl := Except.ok.inj (hconnect.symm.trans (ok_of_toOption hmade))
  simp only [Prod.mk.injEq, List.all_eq_true] at hedited
  obtain ⟨hstartNames, hheads, hnextNames⟩ := hedited
  obtain ⟨next, configured, hnext, hcontent⟩ := hconfigure ⟨"j", 0⟩
    (unusedIn_of_head (c := 'j') (by decide +kernel) fun text ht => by simpa using hheads text ht)
  refine ⟨hd, schema, start, declared, next, ok_of_toOption hschema, hnames, hstart, hstartNames,
    a.id, b.id, c.id, _, configured, hconnect, hnext, ?_, hcontent⟩
  obtain ⟨built, hbuilt, hnextNames⟩ := Option.map_eq_some_iff.mp hnextNames
  obtain rfl := Except.ok.inj (hnext.symm.trans (ok_of_toOption hbuilt))
  exact hnextNames

end Source

end ErModel
