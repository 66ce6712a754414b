import ErModel.Proofs.WithoutKey

/-!
# Ids that close up

A document without one of its keys needs one id less, as there is one column less. The ids behind it
close up, and those of the junction tables behind them: the document without its many-to-many key is
that with the key without its join, under these ids.
-/

namespace ErModel

/-- Records of joins are dropped before others are put into the tables, and from among these. -/
theorem Schema.clearAll_holding (schema : Schema) (records : List (TableId × Join))
    (joins : List JoinId) :
    (schema.holding records).mapTables (·.clearAll joins) =
      (schema.mapTables (·.clearAll joins)).holding (records.filter (·.2.id ∉ joins)) := by
  refine congrArg Schema.mk ?_
  simp only [holding, mapTables, List.map_map]
  refine List.map_congr_left fun t _ => ?_
  have hrecords : ((records.filter (·.1 = t.id)).map (·.2)).filter (·.id ∉ joins) =
      ((records.filter (·.2.id ∉ joins)).filter (·.1 = t.id)).map (·.2) := by
    rw [List.filter_map, List.filter_comm]
    rfl
  rw [Function.comp_apply, Function.comp_apply, Table.clearAll, List.filter_append, hrecords]
  rfl

/-- A pending join may be taken out of a schema. -/
theorem Schema.Valid.clearAll {schema : Schema} (hv : schema.Valid) (hp : schema.MirrorsPlaced)
    {join : JoinId} (hj : join ∈ schema.pendingJoins.map (·.id)) :
    (schema.mapTables (·.clearAll [join])).Valid ∧
      (schema.mapTables (·.clearAll [join])).MirrorsPlaced := by
  have huncarried := (Schema.owner_of_pending hv hj).2
  have hnone : ¬ schema.Orphans [join] := by
    rintro ⟨_, _, _, target, _, t, ht, -, c, hc, -, hgoes⟩
    simp [Column.goesWith, huncarried t ht c hc] at hgoes
  rw [← Schema.strip_of_uncarried huncarried]
  exact ⟨(Schema.stripAll_valid_iff hv [join]).mpr hnone, Schema.placed_stripAll hp [join]⟩

namespace Source

variable {ids ids' : IdSupply} {document : Document} {linking : Linking}
  {described : List (Entity × Table)}

theorem columnsOf_append {table : TableId} {place : Nat} {properties properties' : List Property}
    {columns : List Column} :
    columnsOf table ids place (properties ++ properties') = .ok columns ↔ ∃ first rest,
      columnsOf table ids place properties = .ok first ∧
      columnsOf table ids (place + properties.length) properties' = .ok rest ∧
      columns = first ++ rest := by
  induction properties generalizing place columns with
  | nil =>
      constructor
      · exact fun h => ⟨[], columns, rfl, h, rfl⟩
      · rintro ⟨_, rest, ⟨⟩, h, rfl⟩
        exact h
  | cons property more ih =>
      rw [List.cons_append, List.length_cons, ← Nat.add_assoc, Nat.add_right_comm]
      constructor
      · intro h
        obtain ⟨column, hcolumn, h⟩ := bind_eq_ok.mp h
        obtain ⟨_, hmore, h⟩ := bind_eq_ok.mp h
        cases h
        obtain ⟨first, rest, hfirst, hrest, rfl⟩ := ih.mp hmore
        exact ⟨column :: first, rest,
          bind_eq_ok.mpr ⟨column, hcolumn, bind_eq_ok.mpr ⟨first, hfirst, rfl⟩⟩, hrest, rfl⟩
      · rintro ⟨_, rest, h, hrest, rfl⟩
        obtain ⟨column, hcolumn, h⟩ := bind_eq_ok.mp h
        obtain ⟨first, hfirst, h⟩ := bind_eq_ok.mp h
        cases h
        exact bind_eq_ok.mpr ⟨column, hcolumn,
          bind_eq_ok.mpr ⟨_, ih.mpr ⟨first, rest, hfirst, hrest, rfl⟩, rfl⟩⟩

/-- Where a key is left, it is the key that was there. -/
theorem keyOf_without {first rest : List Column} {column : Column} {key : Option ColumnId}
    (h : keyOf (first ++ column :: rest) = .ok key)
    (hkey : true ∈ (first ++ rest).map (·.primaryKey)) : keyOf (first ++ rest) = .ok key := by
  obtain ⟨left, hleft, hflag⟩ := List.mem_map.mp hkey
  have hmem : left ∈ (first ++ rest).filter (·.primaryKey) := List.mem_filter.mpr ⟨hleft, hflag⟩
  unfold keyOf at h ⊢
  by_cases hprimary : column.primaryKey = true
  · -- then there would be two keys
    have hcons : (column :: rest).filter (·.primaryKey) = column :: rest.filter (·.primaryKey) :=
      List.filter_cons_of_pos hprimary
    rw [List.filter_append, hcons] at h
    have hlength := List.length_pos_of_mem hmem
    rw [List.filter_append, List.length_append] at hlength
    split at h
    · rename_i hnone
      exact absurd (List.append_eq_nil_iff.mp hnone).2 (List.cons_ne_nil _ _)
    · rename_i hone
      have hone := congrArg List.length hone
      simp only [List.length_append, List.length_cons, List.length_nil] at hone
      omega
    · cases h
  · rw [List.filter_append, List.filter_cons_of_neg hprimary, ← List.filter_append] at h
    split at h
    · rename_i hnone
      exact absurd (hnone ▸ hmem) List.not_mem_nil
    · exact h
    · cases h

variable {names : Relabelling} {place : Nat → Nat}

/-- The table of an entity without a property is that of the entity without the column, under ids
that close up behind it. -/
theorem Entity.table_without {entity : Entity} {table : Table} {before behind : List Property}
    {property : Property} (hsplit : entity.properties = before ++ property :: behind)
    (hothers : ∀ other ∈ before ++ behind, other.name ≠ property.name)
    (ht : entity.table ids = .ok table)
    (hkey : true ∈ (table.dropColumn property.name).columns.map (·.primaryKey))
    (htable : names.table (ids.tableId 0) = ids'.tableId 0)
    (hbefore : ∀ i < before.length, names.column (ids.columnId (1 + i)) = ids'.columnId (1 + i))
    (hbehind : ∀ i < behind.length, names.column (ids.columnId (1 + before.length + 1 + i)) =
      ids'.columnId (1 + before.length + i)) :
    Entity.table { entity with properties := before ++ behind } ids' =
      .ok (names.onTable (table.dropColumn property.name)) := by
  obtain ⟨columns, hcolumns, ht⟩ := bind_eq_ok.mp ht
  obtain ⟨key, hkeyOf, ht⟩ := bind_eq_ok.mp ht
  cases ht
  rw [hsplit, columnsOf_append] at hcolumns
  obtain ⟨first, _, hfirst, hcolumns, rfl⟩ := hcolumns
  obtain ⟨column, hcolumn, hcolumns⟩ := bind_eq_ok.mp hcolumns
  obtain ⟨rest, hrest, hcolumns⟩ := bind_eq_ok.mp hcolumns
  cases hcolumns
  have hnames : (first ++ rest).map (·.name) = (before ++ behind).map (·.name) := by
    rw [List.map_append, List.map_append, (columnsOf_eq_ok hfirst).2.1, (columnsOf_eq_ok hrest).2.1]
  have hleft : (first ++ column :: rest).filter (·.name ≠ property.name) = first ++ rest := by
    rw [List.filter_append, List.filter_cons_of_neg (by simp [(Property.column_eq_ok hcolumn).2.1]),
      ← List.filter_append]
    refine List.filter_eq_self.mpr fun c hc => ?_
    obtain ⟨other, hother, hname⟩ := List.mem_map.mp (hnames ▸ List.mem_map.mpr ⟨c, hc, rfl⟩)
    simpa [← hname] using hothers other hother
  rw [Table.dropColumn] at hkey ⊢
  dsimp only at hkey ⊢
  rw [hleft] at hkey ⊢
  have hmoved : columnsOf (names.table (ids.tableId 0)) ids' 1 (before ++ behind) =
      .ok ((first ++ rest).map names.onColumn) := by
    refine columnsOf_append.mpr ⟨_, _, columnsOf_renumbered hbefore hfirst,
      columnsOf_renumbered hbehind hrest, List.map_append⟩
  rw [htable] at hmoved
  refine bind_eq_ok.mpr ⟨_, hmoved, bind_eq_ok.mpr
    ⟨_, keyOf_relabel names (keyOf_without hkeyOf hkey), ?_⟩⟩
  rw [Relabelling.onTable, htable]
  rfl

/-- What a document is without a property of the entity in this place. -/
theorem Document.without_entities (hd : document.Distinct) {front back : List Entity}
    {entity : Entity} (hsplit : document.entities = front ++ entity :: back) (property : String) :
    (document.without entity.name property).entities =
        front ++ entity.without property :: back ∧
      ∀ e ∈ front ++ back, e.name ≠ entity.name := by
  have hn := hd.entities
  rw [hsplit, List.map_append, List.map_cons, List.nodup_middle, List.nodup_cons, ← List.map_append,
    List.mem_map] at hn
  have hother : ∀ e ∈ front ++ back, e.name ≠ entity.name := fun e he hname => hn.1 ⟨e, he, hname⟩
  obtain ⟨hfront, hback⟩ := List.forall_mem_append.mp hother
  have hsame : ∀ {entities : List Entity}, (∀ e ∈ entities, e.name ≠ entity.name) →
      entities.map (fun e => if e.name = entity.name then e.without property else e) = entities :=
    fun h => (List.map_congr_left fun e he => if_neg (h e he)).trans (List.map_id _)
  refine ⟨?_, hother⟩
  rw [Document.without, hsplit, List.map_append, List.map_cons, if_pos rfl, hsame hfront,
    hsame hback]

theorem Document.Distinct.without (hd : document.Distinct) (entity property : String) :
    (document.without entity property).Distinct := by
  have hname : ∀ e : Entity, (if e.name = entity then e.without property else e).name = e.name :=
    fun e => by split <;> rfl
  refine ⟨?_, fun e he => ?_⟩
  · rw [Document.without, List.map_map]
    simpa only [Function.comp_def, hname] using hd.entities
  · obtain ⟨old, hold, rfl⟩ := List.mem_map.mp he
    split
    · exact (hd.properties old hold).sublist (List.filter_sublist.map _)
    · exact hd.properties old hold

-- Ids are counted as in the definition of `Document.tableIdCount`.
attribute [local instance (1001)] Zero.ofOfNat0

section

variable {front back : List Entity} {entity : Entity} {before behind : List Property}
  {property : Property} (hd : document.Distinct)
  (hsplit : document.entities = front ++ entity :: back)
  (hproperties : entity.properties = before ++ property :: behind)
  (hothers : ∀ other ∈ before ++ behind, other.name ≠ property.name)
  (hwithout : entity.without property.name = { entity with properties := before ++ behind })
  (hplace : ClosesUp place ((front.map Entity.idCount).sum + 1 + before.length)
    document.tableIdCount)

include hsplit hproperties in
theorem tableIdCount_split : document.tableIdCount =
    (front.map Entity.idCount).sum + (1 + before.length + 1 + behind.length) +
      (back.map Entity.idCount).sum := by
  show (document.entities.map Entity.idCount).sum = _
  rw [hsplit, List.map_append, List.sum_append, List.map_cons, List.sum_cons,
    Entity.idCount, hproperties, List.length_append, List.length_cons]
  omega

include hd hsplit hproperties hwithout

theorem tableIdCount_without :
    document.tableIdCount = (document.without entity.name property.name).tableIdCount + 1 := by
  have htotal := tableIdCount_split hsplit hproperties
  have htotal' : (document.without entity.name property.name).tableIdCount =
      ((document.without entity.name property.name).entities.map Entity.idCount).sum := rfl
  rw [(Document.without_entities hd hsplit property.name).1, List.map_append, List.sum_append,
    List.map_cons, List.sum_cons, hwithout, Entity.idCount, List.length_append] at htotal'
  omega

include hplace

/-- The blocks of the entities, where that of one of them is shorter. -/
theorem places_without :
    places Entity.idCount 0 (document.without entity.name property.name).entities =
      (places Entity.idCount 0 document.entities).map fun p =>
        (if p.1.name = entity.name then p.1.without property.name else p.1, place p.2) := by
  obtain ⟨hentities, hother⟩ := Document.without_entities hd hsplit property.name
  have htotal := tableIdCount_split hsplit hproperties
  have hkept : ∀ {start : Nat} {entities : List Entity}, (∀ e ∈ entities, e ∈ front ++ back) →
      (places Entity.idCount start entities).map (fun p =>
        (if p.1.name = entity.name then p.1.without property.name else p.1, place p.2)) =
      (places Entity.idCount start entities).map (Prod.map id place) := by
    intro start entities hsub
    exact List.map_congr_left fun p hp =>
      Prod.ext (if_neg (hother _ (hsub _ (fst_mem_of_mem_places hp)))) rfl
  have hsize : ∀ e : Entity, 0 < e.idCount := fun e => by
    rw [Entity.idCount]
    omega
  have hfront : (places Entity.idCount 0 front).map (Prod.map id place) =
      places Entity.idCount 0 front :=
    places_shift (fun e _ => hsize e) fun i hi => hplace.below _ (by omega)
  have hback : (places Entity.idCount (0 + (front.map Entity.idCount).sum + entity.idCount) back).map
        (Prod.map id place) =
      places Entity.idCount
        (0 + (front.map Entity.idCount).sum + (entity.without property.name).idCount) back := by
    refine places_shift (fun e _ => hsize e) fun i hi => ?_
    rw [Entity.idCount, Entity.idCount, hwithout, hproperties, List.length_append,
      List.length_append, List.length_cons]
    refine (congrArg place ?_).trans (hplace.above _ ?_ ?_) <;> omega
  have hfirst : place (0 + (front.map Entity.idCount).sum) = 0 + (front.map Entity.idCount).sum :=
    hplace.below _ (by omega)
  rw [hentities, hsplit, places_append, places_append, List.map_append,
    hkept fun e he => List.mem_append_left _ he, hfront, places, places, List.map_cons,
    hkept fun e he => List.mem_append_right _ he, if_pos rfl]
  dsimp only
  rw [hfirst]
  exact congrArg (fun blocks => _ ++ _ :: blocks) hback.symm

include hothers

/-- Each entity describes the table that it has described, under the ids that close up, and the one
without its property the table without the column. -/
theorem describes_without (hnames : names.Moves place ids ids')
    (hdescribes : List.Forall₂ (Describes ids) (places Entity.idCount 0 document.entities) described)
    (hkey : ∀ table, (entity, table) ∈ described →
      true ∈ (table.dropColumn property.name).columns.map (·.primaryKey)) :
    List.Forall₂ (Describes ids')
      (places Entity.idCount 0 (document.without entity.name property.name).entities)
      ((described.map (lacking entity.name property.name)).map (Prod.map id names.onTable)) := by
  obtain ⟨-, hother⟩ := Document.without_entities hd hsplit property.name
  have htotal := tableIdCount_split hsplit hproperties
  rw [places_without hd hsplit hproperties hwithout hplace, List.forall₂_map_left_iff,
    List.forall₂_map_right_iff, List.forall₂_map_right_iff]
  -- a block that is not touched goes on to be one
  have hblock : ∀ p : Entity × Nat, ∀ e, p.1.name ≠ entity.name → Describes ids p e →
      (∀ i < p.1.idCount, place (p.2 + i) = place p.2 + i) →
      Describes ids' (if p.1.name = entity.name then p.1.without property.name else p.1, place p.2)
        (Prod.map id names.onTable (lacking entity.name property.name e)) := by
    rintro p e hne ⟨hentity, htable⟩ hplaced
    rw [lacking, hentity, if_neg hne, if_neg hne]
    refine ⟨hentity, Entity.table_renumbered ?_ (fun k hk => ?_) htable⟩
    · rw [IdSupply.tableId_skip, IdSupply.tableId_skip, hnames.tableId]
      rfl
    · rw [IdSupply.columnId_skip, IdSupply.columnId_skip, hnames.columnId, hplaced k hk]
  refine forall₂_imp_mem hdescribes fun p hp e he hdescribed => ?_
  rw [hsplit, places_append, List.mem_append, places, List.mem_cons] at hp
  rcases hp with hp | rfl | hp
  · have hle := places_le hp
    have hname := hother _ (List.mem_append_left _ (fst_mem_of_mem_places hp))
    refine hblock p e hname hdescribed fun i hi => ?_
    rw [hplace.below _ (by omega), hplace.below _ (by omega)]
  · obtain ⟨hentity, htable⟩ := hdescribed
    dsimp only at hentity htable ⊢
    have hfirst : place (0 + (front.map Entity.idCount).sum) = 0 + (front.map Entity.idCount).sum :=
      hplace.below _ (by omega)
    rw [lacking, hentity, if_pos rfl, if_pos rfl, hwithout, hfirst]
    refine ⟨rfl, Entity.table_without hproperties hothers htable
      (hkey e.2 (hentity ▸ he)) ?_ (fun i hi => ?_) fun i hi => ?_⟩
    · rw [IdSupply.tableId_skip, IdSupply.tableId_skip, hnames.tableId]
      exact congrArg ids'.tableId hfirst
    · rw [IdSupply.columnId_skip, IdSupply.columnId_skip, hnames.columnId]
      exact congrArg ids'.columnId (hplace.below _ (by omega))
    · rw [IdSupply.columnId_skip, IdSupply.columnId_skip, hnames.columnId]
      exact congrArg ids'.columnId ((congrArg place (by omega)).trans
        (hplace.above (0 + (front.map Entity.idCount).sum + (1 + before.length + i))
          (by omega) (by omega)))
  · have hle := le_of_mem_places hp
    have hlt := places_le hp
    have hcount : entity.idCount = 1 + (before.length + (behind.length + 1)) := by
      rw [Entity.idCount, hproperties, List.length_append, List.length_cons]
    rw [hcount] at hle hlt
    have hname := hother _ (List.mem_append_right _ (fst_mem_of_mem_places hp))
    refine hblock p e hname hdescribed fun i hi => ?_
    obtain ⟨k, hk⟩ : ∃ k, p.2 = k + 1 := ⟨p.2 - 1, by omega⟩
    rw [hk, Nat.add_right_comm, hplace.above _ (by omega) (by omega),
      hplace.above _ (by omega) (by omega)]

end

/-! ## A join that is forgotten -/

/-- What is linked without a join is the schema without the records of the join. -/
theorem Linking.schema_forget (hids : (linking.tables.map (·.id)).Nodup)
    (pair : TableId × TableId) : (linking.forget pair).schema =
      linking.schema.mapTables (·.clearAll [.between pair.1 pair.2]) := by
  have hids' : ((linking.forget pair).tables.map (·.id)).Nodup := by
    rw [forget, List.map_map]
    exact hids
  rw [schema_holding hids, schema_holding hids', Schema.clearAll_holding]
  rfl

section

variable (h : LinksUp ids (places Entity.idCount 0 document.entities) described linking)
  (hd : document.Distinct)

include h hd

/-- A table with columns has a key among them. -/
theorem LinksUp.key_mem {t : Table} (ht : t ∈ linking.tables) (hcolumns : t.columns ≠ []) :
    true ∈ t.columns.map (·.primaryKey) := by
  obtain ⟨-, -, htables⟩ := placeMirrors (h.sound hd).mirrors
  have hsame : linking.bare.SameTables linking.schema := Eq.symm htables
  obtain ⟨u, hu, he⟩ := hsame.mem ht
  obtain ⟨key, hkey, -⟩ := ((h.valid.tables u hu).of_withoutJoins he).key.resolve_left hcolumns
  obtain ⟨hmem, hflag⟩ := List.mem_filter.mp (hkey ▸ List.mem_singleton_self key)
  exact List.mem_map.mpr ⟨key, hmem, hflag⟩

/-- **A document without one of its many-to-many keys** is linked to what the document with the key
is linked to, without the join of the key, under ids that close up. The key has to be the only one
by which its entity refers to another, and there has to be a column that is left. -/
theorem LinksUp.without {entity : Entity} (he : entity ∈ document.entities) {property : Property}
    (hp : property ∈ entity.properties) {reference : Reference}
    (hr : property.reference? = some reference) {choice : ReferenceChoice}
    (hchoice : reference.options.foldlM ReferenceChoice.choose {} = .ok choice)
    (hkind : choice.kind = .manyToMany)
    (honly : ∀ other ∈ entity.properties, ∀ reference', other.reference? = some reference' →
      reference'.target = reference.target → other = property) :
    ∃ a b c, linking.Waits entity.name reference choice a b c ∧
      document.tableIdCount = (document.without entity.name property.name).tableIdCount + 1 ∧
      ∃ gap < document.tableIdCount, ∀ (names : Relabelling) (place : Nat → Nat) (ids' : IdSupply),
        names.Moves place ids ids' → ClosesUp place gap document.tableIdCount → a.columns ≠ [] →
        ∃ described', LinksUp ids'
          (places Entity.idCount 0 (document.without entity.name property.name).entities)
          described' ((linking.forget (a.id, b.id)).relabel names) := by
  obtain ⟨a, b, c, hwaits, ⟨table, hmem, haid, hcolumns⟩, hlinks⟩ :=
    h.forget hd he hp hr hchoice hkind honly
  obtain ⟨front, back, hsplit⟩ := List.append_of_mem he
  obtain ⟨before, behind, hproperties, hothers, hwithout⟩ :=
    Entity.split_properties (hd.properties entity he) hp
  have htotal := tableIdCount_split hsplit hproperties
  have hsound := h.sound hd
  refine ⟨a, b, c, hwaits, tableIdCount_without hd hsplit hproperties hwithout,
    (front.map Entity.idCount).sum + 1 + before.length, by omega, ?_⟩
  intro names place ids' hnames hplace hleft
  have hentities := entities_of_describes h.describes
  have hentityNames : (described.map (·.1.name)).Nodup := by
    have := hd.entities
    rwa [← hentities, List.map_map] at this
  have hdescribes := describes_without hd hsplit hproperties hothers hwithout hplace hnames
    h.describes fun table' hmem' => by
      obtain ⟨⟩ := eq_of_key_eq hentityNames hmem' hmem rfl
      exact hcolumns (h.key_mem hd hwaits.source hleft)
  have hdrawn : ∀ e ∈ described.map (lacking entity.name property.name),
      ∃ k, e.2.id = ids.tableId k := by
    intro e he
    obtain ⟨old, hold, rfl⟩ := List.mem_map.mp he
    rw [lacking_id]
    exact (h.start_sound hd).1.drawn.tableId (List.mem_map.mpr ⟨old, hold, rfl⟩)
  refine ⟨_, hdescribes, links_moved hnames hdrawn hlinks, ?_⟩
  rw [Linking.schema_relabel hnames.tables, Linking.schema_forget hsound.drawn.ids_nodup]
  have hpending := (hsound.awaitsJunctions h.valid).waits _ hwaits.deferred
  obtain ⟨hvalid, hplaced⟩ := h.valid.clearAll hsound.placed hpending
  exact hvalid.renumbered hnames hplaced

end

end Source

end ErModel
