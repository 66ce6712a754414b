import ErModel.Proofs.JunctionsAtOnce
import ErModel.Proofs.LinkingApart

/-!
# Entities in any order

A document may name its entities in any order. What each of them describes takes a block of ids, its
foreign keys are linked to what they mean, and each many-to-many key gets its junction table, with a
block of ids again: none of that depends on what stands before or behind. So another order moves the
blocks. Under the ids at which they come out, the schema is the same but for the order of its tables
and of the records among their joins.
-/

namespace ErModel

namespace Source

variable {ids ids' : IdSupply} {n : Nat} {document document' : Document}

/-! ## Entities and their tables -/

/-- The entity, which has its ids from a place on, describes the table beside it. -/
def Describes (ids : IdSupply) (placed : Entity × Nat) (described : Entity × Table) : Prop :=
  described.1 = placed.1 ∧ placed.1.table (ids.skip placed.2) = .ok described.2

/-- The tables of entities are described one by one, each with the ids of its own block. -/
theorem tablesOf_iff {entities : List Entity} {tables : List Table} :
    tablesOf (ids.skip n) entities = .ok tables ↔ ∃ described,
      List.Forall₂ (Describes ids) (places Entity.idCount n entities) described ∧
        tables = described.map (·.2) := by
  induction entities generalizing n tables with
  | nil =>
      constructor
      · intro h
        cases h
        exact ⟨[], .nil, rfl⟩
      · rintro ⟨_, ⟨⟩, rfl⟩
        rfl
  | cons entity rest ih =>
      constructor
      · intro h
        obtain ⟨table, htable, h⟩ := bind_eq_ok.mp h
        obtain ⟨more, hmore, h⟩ := bind_eq_ok.mp h
        cases h
        rw [IdSupply.skip_skip] at hmore
        obtain ⟨described, hdescribed, rfl⟩ := ih.mp hmore
        exact ⟨(entity, table) :: described, .cons ⟨rfl, inEntity_eq_ok htable⟩ hdescribed, rfl⟩
      · rintro ⟨_, hall, rfl⟩
        obtain ⟨⟨first, table⟩, described, ⟨hfirst, htable⟩, hdescribed, rfl⟩ :=
          List.forall₂_cons_left_iff.mp hall
        refine bind_eq_ok.mpr ⟨table, ?_, bind_eq_ok.mpr ⟨described.map (·.2), ?_, rfl⟩⟩
        · rw [htable, inEntity_ok]
        · rw [IdSupply.skip_skip]
          exact ih.mpr ⟨described, hdescribed, rfl⟩

/-- Each entity stands beside the id of its table. -/
theorem zip_ids {entities : List Entity} {described : List (Entity × Table)}
    (h : described.map (·.1) = entities) :
    entities.zip ((described.map (·.2)).map (·.id)) = described.map fun e => (e.1, e.2.id) := by
  rw [← h, List.map_map, List.zip_map']
  rfl

theorem Entity.table_named {entity : Entity} {table : Table} (h : entity.table ids = .ok table) :
    table.id = ids.tableId 0 ∧ table.name = entity.name := by
  obtain ⟨columns, -, h⟩ := bind_eq_ok.mp h
  obtain ⟨key, -, h⟩ := bind_eq_ok.mp h
  cases h
  exact ⟨rfl, rfl⟩

/-- Entities whose ids are those of `placed` describe tables, and all their foreign keys are
linked. -/
structure LinksUp (ids : IdSupply) (placed : List (Entity × Nat))
    (described : List (Entity × Table)) (linking : Linking) : Prop where
  describes : List.Forall₂ (Describes ids) placed described
  links : Linking.linkEntities (.start (described.map (·.2)))
    (described.map fun e => (e.1, e.2.id)) = .ok linking
  valid : linking.schema.Valid

theorem entities_of_describes {entities : List Entity} {described : List (Entity × Table)}
    (h : List.Forall₂ (Describes ids) (places Entity.idCount n entities) described) :
    described.map (·.1) = entities :=
  (map_eq_of_forall₂ h fun _ _ hd => hd.1).trans (map_fst_places ..)

/-- **A document compiles if its foreign keys are linked and its junction tables are made.** -/
theorem Document.schema_iff {schema : Schema} : document.schema ids = .ok schema ↔
    ∃ described linking,
      LinksUp ids (places Entity.idCount 0 document.entities) described linking ∧
      makeJunctions (ids.skip document.tableIdCount) linking.schema linking.deferred =
        .ok schema := by
  constructor
  · intro h
    obtain ⟨tables, htables, hrest⟩ := bind_eq_ok.mp h
    obtain ⟨linking, hlinking, hm⟩ := bind_eq_ok.mp hrest
    obtain ⟨described, hdescribed, rfl⟩ := (tablesOf_iff (n := 0)).mp htables
    rw [zip_ids (entities_of_describes hdescribed)] at hlinking
    split at hm
    · exact absurd hm throw_ne_ok
    · rename_i hvalid
      exact ⟨described, linking, ⟨hdescribed, hlinking, Schema.validate_iff.mp hvalid⟩, hm⟩
  · rintro ⟨described, linking, h, hm⟩
    refine bind_eq_ok.mpr ⟨_, (tablesOf_iff (n := 0)).mpr ⟨described, h.describes, rfl⟩,
      bind_eq_ok.mpr ⟨linking, ?_, ?_⟩⟩
    · rw [zip_ids (entities_of_describes h.describes)]
      exact h.links
    · rw [Schema.validate_iff.mpr h.valid]
      exact hm

section

variable {described : List (Entity × Table)} {linking : Linking}

theorem LinksUp.tables
    (h : LinksUp ids (places Entity.idCount 0 document.entities) described linking) :
    tablesOf ids document.entities = .ok (described.map (·.2)) :=
  (tablesOf_iff (n := 0)).mpr ⟨described, h.describes, rfl⟩

theorem LinksUp.sound
    (h : LinksUp ids (places Entity.idCount 0 document.entities) described linking)
    (hd : document.Distinct) : linking.Sound ids document.tableIdCount := by
  refine sound_of_linkEntities hd h.tables ?_
  rw [zip_ids (entities_of_describes h.describes)]
  exact h.links

/-- The schema of a document is compiled like that of a text. -/
theorem Document.schema_compiled (hd : document.Distinct) {schema : Schema}
    (hs : document.schema ids = .ok schema) : ∃ n, schema.Compiled ids n := by
  obtain ⟨described, linking, h, hm⟩ := schema_iff.mp hs
  have hsound := h.sound hd
  exact makeJunctions_compiled (hsound.compiled h.valid) (Nat.le_refl _) hsound.deferred hm

/-- What the tables of a document are before its foreign keys are linked. -/
theorem LinksUp.start_sound
    (h : LinksUp ids (places Entity.idCount 0 document.entities) described linking)
    (hd : document.Distinct) :
    (Linking.start (described.map (·.2))).Sound ids document.tableIdCount ∧
      (described.map (·.2.name)).Nodup ∧
      (∀ e ∈ described, (e.1.properties.map (·.name)).Nodup) ∧
      ∀ e ∈ described, (Linking.start (described.map (·.2))).Awaits e.2.id e.1.properties := by
  have htables := h.tables
  obtain ⟨-, hnames, hplain⟩ := tablesOf_eq_ok htables
  have hentities := entities_of_describes h.describes
  have hpairs : ∀ e ∈ described, e.2.name = e.1.name := by
    intro e he
    obtain ⟨x, -, hx, htable⟩ := exists_left h.describes he
    rw [(Entity.table_named htable).2, hx]
  have htableNames : (described.map (·.2.name)).Nodup := by
    have hsame : described.map (·.2.name) = document.entities.map (·.name) := by
      rw [← hentities, List.map_map]
      exact List.map_congr_left hpairs
    exact hsame ▸ hd.entities
  exact ⟨sound_of_tablesOf hd htables, htableNames,
    fun e he => hd.properties e.1 (hentities ▸ List.mem_map.mpr ⟨e, he, rfl⟩),
    fun e he => awaits_of_tablesOf (s := (e.1, e.2.id)) hnames (fun t ht => (hplain t ht).1)
      (zip_ids hentities ▸ List.mem_map.mpr ⟨e, he, rfl⟩)⟩

/-- **The entities may come in another order**, as long as each has the ids that it had. -/
theorem LinksUp.perm
    (h : LinksUp ids (places Entity.idCount 0 document.entities) described linking)
    (hd : document.Distinct) {placed : List (Entity × Nat)}
    (hperm : placed.Perm (places Entity.idCount 0 document.entities)) :
    ∃ described' linking', LinksUp ids placed described' linking' ∧
      linking.schema.content = linking'.schema.content ∧
      linking.deferred.Perm linking'.deferred := by
  obtain ⟨described', hdescribes, hdescribed⟩ := List.perm_comp_forall₂ hperm h.describes
  obtain ⟨hstart, hnames, hdistinct, hawaits⟩ := h.start_sound hd
  obtain ⟨linking', hlinks, hpermTables, hmirrors, hdeferred⟩ := Linking.linkEntities_perm
    hdescribed.symm hstart hnames hdistinct hawaits h.links h.valid
  have hcontent := Linking.content_of_perm (h.sound hd).drawn.ids_nodup hpermTables hmirrors
  exact ⟨described', linking', ⟨hdescribes, hlinks, Schema.valid_of_content h.valid hcontent⟩,
    hcontent, hdeferred⟩

variable {names : Relabelling} {place : Nat → Nat}

/-- Tables of the supply are linked in the same way under other ids. -/
theorem links_moved (hnames : names.Moves place ids ids')
    (hdrawn : ∀ e ∈ described, ∃ k, e.2.id = ids.tableId k)
    (hlinks : Linking.linkEntities (.start (described.map (·.2)))
      (described.map fun e => (e.1, e.2.id)) = .ok linking) :
    Linking.linkEntities (.start ((described.map (Prod.map id names.onTable)).map (·.2)))
        ((described.map (Prod.map id names.onTable)).map fun e => (e.1, e.2.id)) =
      .ok (linking.relabel names) := by
  have hstart : (Linking.start (described.map (·.2))).relabel names =
      .start ((described.map (Prod.map id names.onTable)).map (·.2)) := by
    rw [Linking.relabel, Linking.start, List.map_map, List.map_map]
    rfl
  have hsources : (described.map fun e => (e.1, e.2.id)).map (Prod.map id names.table) =
      (described.map (Prod.map id names.onTable)).map fun e => (e.1, e.2.id) := by
    rw [List.map_map, List.map_map]
    rfl
  have hmoved :=
    Linking.linkEntities_renumbered hnames (fun id hid => ?_) (fun s hs => ?_) hlinks
  · rwa [hstart, hsources] at hmoved
  · obtain ⟨t, ht, rfl⟩ := List.mem_map.mp hid
    obtain ⟨e, he, rfl⟩ := List.mem_map.mp ht
    exact hdrawn e he
  · obtain ⟨e, he, rfl⟩ := List.mem_map.mp hs
    exact hdrawn e he

/-- **The entities may have other ids**, as long as those of one entity stay together. -/
theorem LinksUp.moved (hnames : names.Moves place ids ids') {placed : List (Entity × Nat)}
    (h : LinksUp ids placed described linking) (hplaced : linking.schema.MirrorsPlaced)
    (hblocks : ∀ p ∈ placed, ∀ i < p.1.idCount, place (p.2 + i) = place p.2 + i) :
    LinksUp ids' (placed.map (Prod.map id place)) (described.map (Prod.map id names.onTable))
      (linking.relabel names) := by
  have hdrawn : ∀ e ∈ described, ∃ k, e.2.id = ids.tableId k := by
    intro e he
    obtain ⟨x, -, -, htable⟩ := exists_left h.describes he
    exact ⟨_, (Entity.table_named htable).1.trans (ids.tableId_skip _ _)⟩
  refine ⟨?_, links_moved hnames hdrawn h.links, ?_⟩
  · rw [List.forall₂_map_left_iff, List.forall₂_map_right_iff]
    refine forall₂_imp_mem h.describes fun x hx e _ ⟨hentity, htable⟩ => ⟨hentity, ?_⟩
    refine Entity.table_renumbered ?_ (fun k hk => ?_) htable
    · rw [IdSupply.tableId_skip, IdSupply.tableId_skip, hnames.tableId]
      rfl
    · rw [IdSupply.columnId_skip, IdSupply.columnId_skip, hnames.columnId, hblocks x hx k hk]
      rfl
  · rw [Linking.schema_relabel hnames.tables]
    exact h.valid.renumbered hnames hplaced

end

/-! ## Junction tables -/

/-- Junction tables that are made are made in another order as well, under ids by which each block
stays together. -/
theorem forall_makes_moved {schema : Schema} {names : Relabelling} {place : Nat → Nat}
    (hnames : names.Moves place ids ids') (hs : schema.Compiled ids n)
    {waiting waiting' : List (Deferred × Nat)} {made : List (Table × Join × Join)}
    (hmakes : List.Forall₂ (schema.Makes ids) waiting made)
    (hblocks : ∀ w ∈ waiting, ∀ i < 4, place (w.2 + i) = place w.2 + i)
    (hperm : waiting'.Perm (waiting.map (Prod.map names.onDeferred place))) :
    ∃ made', List.Forall₂ ((names.apply schema).Makes ids') waiting' made' ∧
      made'.Perm (made.map names.onMade) := by
  have hmoved : List.Forall₂ ((names.apply schema).Makes ids')
      (waiting.map (Prod.map names.onDeferred place)) (made.map names.onMade) := by
    rw [List.forall₂_map_left_iff, List.forall₂_map_right_iff]
    exact forall₂_imp_mem hmakes fun w hw m _ hm =>
      hm.relabel hnames hs.valid hs.drawn (hblocks w hw)
  exact List.perm_comp_forall₂ hperm hmoved

/-- Under new ids names stay apart, and in another order. -/
theorem names_nodup_of_made {schema : Schema} {names : Relabelling}
    {made made' : List (Table × Join × Join)}
    (h : (schema.tables.map (·.name) ++ made.map (·.1.name)).Nodup)
    (hmade : made'.Perm (made.map names.onMade)) {tables : List Table}
    (htables : (tables.map (·.name)).Perm (schema.tables.map (·.name))) :
    (tables.map (·.name) ++ made'.map (·.1.name)).Nodup := by
  have hmadeNames : (made'.map (·.1.name)).Perm (made.map (·.1.name)) := by
    have := hmade.map (·.1.name)
    rwa [List.map_map] at this
  exact (htables.append hmadeNames).nodup_iff.mpr h

/-- The junction tables of joins that come in another order are made as well, and they are the same
under the ids at which their blocks come out. -/
theorem makeJunctions_moved {schema schema' next : Schema} {deferred deferred' : List Deferred}
    {names : Relabelling} {place move : Nat → Nat} {total : Nat}
    (hnames : names.Moves place ids ids')
    (h : schema.AwaitsJunctions ids n deferred)
    (h' : (names.apply schema').AwaitsJunctions ids' n (deferred'.map names.onDeferred))
    (hcontent : schema.content = schema'.content) (hperm : deferred.Perm deferred')
    (hmove : MovesBlocks (fun _ => 4) n total (places (fun _ => 4) n deferred)
      (places (fun _ => 4) n deferred') move) (hplace : ∀ k, n ≤ k → place k = move k)
    (hm : makeJunctions (ids.skip n) schema deferred = .ok next) :
    ∃ next', makeJunctions (ids'.skip n) (names.apply schema') (deferred'.map names.onDeferred) =
        .ok next' ∧ (names.apply next).content = next'.content := by
  obtain ⟨made, hmakes, hnamesApart, rfl⟩ := (makeJunctions_iff h).mp hm
  have hsame : (names.apply schema).content = (names.apply schema').content :=
    Schema.content_apply names hcontent
  have hblocks : ∀ w ∈ places (fun _ => 4) n deferred, ∀ i < 4, place (w.2 + i) = place w.2 + i := by
    intro w hw i hi
    have hle := le_of_mem_places hw
    rw [hplace _ (by omega), hplace _ hle, hmove.block w hw i hi]
  have hplaces : places (fun _ => 4) n (deferred'.map names.onDeferred) =
      (places (fun _ => 4) n deferred').map (Prod.map names.onDeferred id) :=
    places_map (fun _ => rfl) n deferred'
  have hplaced : (places (fun _ => 4) n (deferred'.map names.onDeferred)).Perm
      ((places (fun _ => 4) n deferred).map (Prod.map names.onDeferred place)) := by
    have hmoved : (places (fun _ => 4) n deferred).map (Prod.map names.onDeferred place) =
        ((places (fun _ => 4) n deferred).map (Prod.map id move)).map
          (Prod.map names.onDeferred id) := by
      rw [List.map_map]
      exact List.map_congr_left fun w hw => Prod.ext rfl (hplace _ (le_of_mem_places hw))
    rw [hplaces, hmoved]
    exact hmove.perm.symm.map _
  obtain ⟨made', hmakes', hmade⟩ := forall_makes_moved hnames h.compiled hmakes hblocks hplaced
  refine ⟨_, (makeJunctions_iff h').mpr ⟨made', ?_, ?_, rfl⟩, ?_⟩
  · exact hmakes'.imp fun _ _ hm => hm.of_content hsame
  · have hnames' : (names.apply schema).tables.map (·.name) = schema.tables.map (·.name) := by
      rw [Relabelling.apply, Schema.mapTables, List.map_map]
      rfl
    exact names_nodup_of_made hnamesApart hmade (hnames' ▸ Schema.names_perm hsame.symm)
  · rw [names.apply_withJunctions hnames.tables hnames.joins]
    refine Schema.content_withJunctions ?_ hmade.symm hsame
    rw [List.map_map, List.map_map]
    exact hperm.map _

/-! ## The whole -/

theorem Document.Distinct.perm (hd : document.Distinct)
    (hperm : document.entities.Perm document'.entities) : document'.Distinct :=
  ⟨(hperm.map _).nodup_iff.mp hd.entities, fun e he => hd.properties e (hperm.mem_iff.mpr he)⟩

/-- What compiles does so in any order of its entities, and the schema is the same but for order,
under other ids. -/
theorem Document.schema_reordered (hd : document.Distinct)
    (hperm : document.entities.Perm document'.entities) {schema : Schema}
    (hs : document.schema ids = .ok schema) (ids' : IdSupply) :
    ∃ (names : Relabelling) (place : Nat → Nat), names.Moves place ids ids' ∧
      ∃ schema', document'.schema ids' = .ok schema' ∧
        (names.apply schema).content = schema'.content := by
  obtain ⟨described, linking, hlinked, hmade⟩ := schema_iff.mp hs
  have htotal : document'.tableIdCount = document.tableIdCount := (hperm.map _).symm.sum_nat
  have hidCount : ∀ e : Entity, 0 < e.idCount := fun e => by
    rw [Entity.idCount]
    omega
  -- first the blocks of entities are moved, and then those of junction tables behind them
  obtain ⟨move, hmove⟩ := exists_movesBlocks hidCount hperm 0
  obtain ⟨placed, hplaced, hpermPlaced⟩ :=
    (congrFun₂ (List.eq_map_comp_perm (Prod.map id move)) _ _).mpr hmove.perm.symm
  obtain ⟨described', linking', hlinked', hcontent, hdeferred⟩ := hlinked.perm hd hpermPlaced
  obtain ⟨move', hmove'⟩ :=
    exists_movesBlocks (fun _ => by decide : ∀ _, 0 < 4) hdeferred document.tableIdCount
  obtain ⟨names, hnames⟩ :=
    Relabelling.exists_moves (hmove'.injective.comp hmove.injective) ids ids'
  have hbelow : ∀ p ∈ placed, ∀ i < p.1.idCount, (move' ∘ move) (p.2 + i) = move (p.2 + i) := by
    intro p hp i hi
    have hle := places_le (hpermPlaced.mem_iff.mp hp)
    have hlt := hmove.lt (k := p.2 + i) (by omega)
    exact hmove'.before _ (by rwa [Nat.zero_add] at hlt)
  have hfirst : ∀ p ∈ placed, (move' ∘ move) p.2 = move p.2 := fun p hp =>
    hbelow p hp 0 (hidCount p.1)
  have hblocks : ∀ p ∈ placed, ∀ i < p.1.idCount,
      (move' ∘ move) (p.2 + i) = (move' ∘ move) p.2 + i := by
    intro p hp i hi
    rw [hbelow p hp i hi, hfirst p hp]
    exact hmove.block p (hpermPlaced.mem_iff.mp hp) i hi
  have hmoved : placed.map (Prod.map id (move' ∘ move)) =
      places Entity.idCount 0 document'.entities := by
    rw [hplaced]
    exact List.map_congr_left fun p hp => Prod.ext rfl (hfirst p hp)
  have hsound := hlinked.sound hd
  have hlinks := hlinked'.moved hnames (Schema.placed_of_content hsound.placed hcontent) hblocks
  rw [hmoved] at hlinks
  have hawaits := (hlinks.sound (hd.perm hperm)).awaitsJunctions hlinks.valid
  rw [Linking.schema_relabel hnames.tables, htotal] at hawaits
  obtain ⟨schema', hm, hsame⟩ := makeJunctions_moved hnames
    (hsound.awaitsJunctions hlinked.valid) hawaits hcontent hdeferred hmove'
    (fun k hk => congrArg move' (hmove.behind k (by rwa [Nat.zero_add]))) hmade
  refine ⟨names, _, hnames, schema', schema_iff.mpr ⟨_, _, hlinks, ?_⟩, hsame⟩
  rw [htotal, Linking.schema_relabel hnames.tables]
  exact hm

/-- **The order of entities does not matter.** A document compiles if it does so in another order of
its entities, and what comes out is the same up to the ids, the order of tables, and the order of
the records among the joins of a table. The ids of joins still follow those of the tables. -/
theorem Document.schema_entityOrder (hd : document.Distinct)
    (hperm : document.entities.Perm document'.entities) (ids ids' : IdSupply) :
    ((∃ schema, document.schema ids = .ok schema) ↔
      ∃ schema', document'.schema ids' = .ok schema') ∧
    ∀ schema schema', document.schema ids = .ok schema → document'.schema ids' = .ok schema' →
      ∃ names : Relabelling, names.Relabels schema ∧
        (names.apply schema).content = schema'.content := by
  refine ⟨⟨?_, ?_⟩, ?_⟩
  · rintro ⟨schema, hs⟩
    obtain ⟨-, -, -, schema', hs', -⟩ := schema_reordered hd hperm hs ids'
    exact ⟨schema', hs'⟩
  · rintro ⟨schema', hs'⟩
    obtain ⟨-, -, -, schema, hs, -⟩ := schema_reordered (hd.perm hperm) hperm.symm hs' ids
    exact ⟨schema, hs⟩
  · intro schema schema' hs hs'
    obtain ⟨names, place, hnames, other, hother, hsame⟩ := schema_reordered hd hperm hs ids'
    obtain rfl := Except.ok.inj (hs'.symm.trans hother)
    obtain ⟨n, hcompiled⟩ := schema_compiled hd hs
    exact ⟨names, hnames.relabels hcompiled, hsame⟩

/-- A property that refers to the key of an entity. -/
def Property.toKey (name entity : String) (options : List ReferenceOption) : Property :=
  ⟨name, ⟨"uuid", []⟩, [.fk ⟨entity, "id", options⟩]⟩

/-- Posts answer posts and share tags. -/
def postEntity : Entity :=
  ⟨"Post", [], [⟨"id", ⟨"uuid", []⟩, [.pk]⟩, .toKey "parent" "Post" [],
    .toKey "tags" "Tag" [.kind "many_to_many"]]⟩

/-- Tags refer to two posts, the first one and the latest. -/
def tagEntity : Entity :=
  ⟨"Tag", [], [⟨"id", ⟨"uuid", []⟩, [.pk]⟩, .toKey "first" "Post" [], .toKey "latest" "Post" []]⟩

/-- Posts may come before tags or behind them: there is a join of posts with themselves, a junction
table, and two joins from tags to posts, and in either order one of the tables is referred to before
it is there. -/
theorem postsAndTags_entityOrder : (Document.mk [postEntity, tagEntity]).Distinct ∧
    [postEntity, tagEntity].Perm [tagEntity, postEntity] ∧
    ∃ schema schema', (Document.mk [postEntity, tagEntity]).schema ⟨"t", 0⟩ = .ok schema ∧
      (Document.mk [tagEntity, postEntity]).schema ⟨"u", 0⟩ = .ok schema' ∧
      schema.tables.map (·.name) = ["Post", "Tag", "PostTag"] ∧
      ∃ names : Relabelling, names.Relabels schema ∧
        (names.apply schema).content = schema'.content := by
  have hd : (Document.mk [postEntity, tagEntity]).Distinct := ⟨by decide, by decide⟩
  have hperm : [postEntity, tagEntity].Perm [tagEntity, postEntity] := .swap ..
  have hnames : ((Document.mk [postEntity, tagEntity]).schema ⟨"t", 0⟩).toOption.map
      (·.tables.map (·.name)) = some ["Post", "Tag", "PostTag"] := by decide +kernel
  obtain ⟨schema, hschema, hnames⟩ := Option.map_eq_some_iff.mp hnames
  have hok := ok_of_toOption hschema
  obtain ⟨hiff, hsame⟩ := Document.schema_entityOrder hd hperm ⟨"t", 0⟩ ⟨"u", 0⟩
  obtain ⟨schema', hok'⟩ := hiff.mp ⟨schema, hok⟩
  exact ⟨hd, hperm, schema, schema', hok, hok', hnames, hsame schema schema' hok hok'⟩

end Source

end ErModel
