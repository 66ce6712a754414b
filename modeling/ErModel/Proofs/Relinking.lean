import ErModel.Proofs.Recompiling
import Mathlib.Logic.Function.Basic

/-!
# Linking the text of a schema

A foreign key in the text of a schema says the names of the table and the column that it refers to.
Names tell tables and columns apart, before and after, so each foreign key is linked to the table and
the column that stand for those it referred to. Only its id and its place are new. While the keys are
linked one after another, nothing of the tables changes but the foreign keys themselves, so what is
linked so far is said by a table of foreign keys.
-/

namespace ErModel

/-- A column with the foreign key that stands under the name of its table and its own. -/
def Column.withKey (keys : TableId × String → Option Join) (table : TableId) (column : Column) :
    Column :=
  { column with foreignKey := keys (table, column.name) }

/-- A table with the foreign keys that stand under its names. -/
def Table.withKeys (keys : TableId × String → Option Join) (table : Table) : Table :=
  { table with columns := table.columns.map (·.withKey keys table.id) }

/-- The tables have these foreign keys, and no many-to-many join waits. -/
structure Source.Linking.HasKeys (linking : Source.Linking) (tables : List Table)
    (keys : TableId × String → Option Join) : Prop where
  tables : linking.tables = tables.map (·.withKeys keys)
  deferred : linking.deferred = []

/-- Ids and names tell the tables apart, and names the columns of each. -/
structure ToldApart (tables : List Table) : Prop where
  ids : (tables.map (·.id)).Nodup
  names : (tables.map (·.name)).Nodup
  columns : ∀ t ∈ tables, (t.columns.map (·.name)).Nodup

/-- The table and the column that a join refers to. -/
structure Join.RefersTo (join : Join) (tables : List Table) (peer : Table) (key : Column) :
    Prop where
  target : join.target = some ⟨peer.id, some key.id⟩
  table : peer ∈ tables
  column : key ∈ peer.columns

/-- A join that says of `source` and of what has the same names what `old` said. It names no columns
of its own. -/
structure Join.Restates (join old : Join) (source : TableId) (olds tables : List Table) : Prop where
  same : join = { old with
    id := join.id, source := source, target := join.target, joinColumn := none, inverseColumn := none }
  target : ∃ oldPeer oldKey peer key, old.RefersTo olds oldPeer oldKey ∧
    join.RefersTo tables peer key ∧ peer.name = oldPeer.name ∧ key.name = oldKey.name

theorem Join.Restates.kind {join old : Join} {source : TableId} {olds tables : List Table}
    (h : join.Restates old source olds tables) : join.kind = old.kind := by
  rw [h.same]

theorem Join.Restates.source {join old : Join} {source : TableId} {olds tables : List Table}
    (h : join.Restates old source olds tables) : join.source = source := by
  rw [h.same]

/-- What a join of a valid schema refers to is written by its names. -/
theorem Schema.Valid.referenceOf?_eq {schema : Schema} (hv : schema.Valid) {join : Join}
    {peer : Table} {key : Column} (hr : join.RefersTo schema.tables peer key) :
    Source.referenceOf? schema join = some ⟨peer.name, key.name, Source.optionsOf join⟩ :=
  Source.referenceOf?_eq_some.mpr ⟨_, peer, key.id, key, hr.target,
    table?_of_mem hv.ids hr.table, rfl,
    find?_key (hv.tables peer hr.table).columnIds hr.column, rfl⟩

namespace Source

/-! ## One foreign key -/

/-- What the options of a foreign key choose. -/
def choiceOf (join : Join) : ReferenceChoice where
  kind := join.kind
  onDelete := join.onDelete
  onUpdate := join.onUpdate
  through := join.through

theorem foldlM_optionsOf (join : Join) :
    (optionsOf join).foldlM ReferenceChoice.choose {} = .ok (choiceOf join) := by
  unfold optionsOf choiceOf
  by_cases hdelete : join.onDelete = .cascade <;> by_cases hupdate : join.onUpdate = .cascade <;>
    cases join.through <;>
      simp [ReferenceChoice.choose, hdelete, hupdate, bind, Except.bind, pure, Except.pure]

theorem names_withKeys (keys : TableId × String → Option Join) (t : Table) :
    (t.withKeys keys).columns.map (·.name) = t.columns.map (·.name) := by
  rw [Table.withKeys, List.map_map]
  rfl

variable {linking : Linking} {tables olds : List Table} {keys : TableId × String → Option Join}
  {entity : String} {source : TableId}

theorem target?_withKeys (h : ToldApart tables) (hl : linking.HasKeys tables keys)
    {t : Table} (ht : t ∈ tables) : linking.target? t.name = some (t.withKeys keys) := by
  have hnames : (linking.tables.reverse.map (·.name)).Nodup := by
    rw [List.map_reverse, (List.reverse_perm _).nodup_iff, hl.tables, List.map_map]
    exact h.names
  refine find?_key (x := t.withKeys keys) hnames (List.mem_reverse.mpr ?_)
  rw [hl.tables]
  exact List.mem_map.mpr ⟨t, ht, rfl⟩

theorem columnNamed?_withKeys (h : ToldApart tables) {t : Table} (ht : t ∈ tables) {c : Column}
    (hc : c ∈ t.columns) :
    (t.withKeys keys).columnNamed? c.name = some (c.withKey keys t.id) := by
  have hnames : ((t.withKeys keys).columns.map (·.name)).Nodup := by
    rw [names_withKeys]
    exact h.columns t ht
  exact find?_key (x := c.withKey keys t.id) hnames (List.mem_map.mpr ⟨c, hc, rfl⟩)

/-- Putting a join on a column enters it under the names of the column. -/
theorem modifyFirst_withKeys (h : ToldApart tables) (source : TableId) (property : String)
    (join : Join) :
    modifyFirst (·.id = source)
        (fun t => { t with
          columns := modifyFirst (·.name = property)
            (fun c => { c with foreignKey := some join }) t.columns })
        (tables.map (·.withKeys keys)) =
      tables.map (·.withKeys (Function.update keys (source, property) (some join))) := by
  have hids : ((tables.map (·.withKeys keys)).map (·.id)).Nodup := by
    rw [List.map_map]
    exact h.ids
  rw [modifyFirst_eq_map hids, List.map_map]
  refine List.map_congr_left fun t ht => ?_
  rw [Function.comp_apply]
  by_cases he : t.id = source
  · rw [if_pos (show (t.withKeys keys).id = source from he)]
    have hcolumns : modifyFirst (·.name = property)
        (fun c : Column => { c with foreignKey := some join }) (t.withKeys keys).columns =
        t.columns.map (·.withKey (Function.update keys (source, property) (some join)) t.id) := by
      rw [modifyFirst_eq_map (names_withKeys keys t ▸ h.columns t ht), Table.withKeys, List.map_map]
      refine List.map_congr_left fun c _ => ?_
      rw [Function.comp_apply, Column.withKey, Column.withKey]
      by_cases hname : c.name = property
      · rw [if_pos hname, ← he, ← hname, Function.update_self]
      · rw [if_neg hname, Function.update_of_ne (by simp [hname])]
    rw [hcolumns]
    rfl
  · rw [if_neg (show ¬ (t.withKeys keys).id = source from he), Table.withKeys, Table.withKeys]
    congr 1
    refine List.map_congr_left fun c _ => ?_
    rw [Column.withKey, Column.withKey, Function.update_of_ne (by simp [he])]

/-- **A foreign key is linked by the names of what it refers to.** -/
theorem link_restates (h : ToldApart tables) (hl : linking.HasKeys tables keys)
    {old : Join} {oldPeer peer : Table} {oldKey key : Column} (hold : old.RefersTo olds oldPeer oldKey)
    (hkind : old.kind ≠ .manyToMany) (hpeer : peer ∈ tables) (hkey : key ∈ peer.columns)
    (hpeerName : peer.name = oldPeer.name)
    (hkeyName : key.name = oldKey.name) (property : String) :
    ∃ next join, linking.link entity source property ⟨oldPeer.name, oldKey.name, optionsOf old⟩ =
        .ok next ∧
      next.HasKeys tables (Function.update keys (source, property) (some join)) ∧
      join.Restates old source olds tables := by
  have hlink : linking.link entity source property ⟨oldPeer.name, oldKey.name, optionsOf old⟩ =
      .ok ({ linking with
          declared := (source, peer.id) :: linking.declared
          mirrors :=
            if peer.id = source then linking.mirrors
            else linking.mirrors ++
              [(peer.id, (linking.joinOf source peer key (choiceOf old)).mirror)] }.modifyTable
        source fun t => { t with
          columns := modifyFirst (·.name = property)
            (fun c => { c with
              foreignKey := some (linking.joinOf source peer key (choiceOf old)) }) t.columns }) := by
    unfold Linking.link
    rw [← hpeerName, ← hkeyName, target?_withKeys h hl hpeer]
    dsimp only
    rw [columnNamed?_withKeys h hpeer hkey]
    dsimp only
    rw [foldlM_optionsOf]
    exact if_neg hkind
  refine ⟨_, linking.joinOf source peer key (choiceOf old), hlink, ⟨?_, hl.deferred⟩, ?_, ?_⟩
  · rw [← modifyFirst_withKeys h, ← hl.tables]
    rfl
  · rfl
  · exact ⟨oldPeer, oldKey, peer, key, hold, ⟨rfl, hpeer, hkey⟩, hpeerName, hkeyName⟩

end Source

/-- A column that compiling the text of the column `old` gives. -/
structure Column.Recompiled (column old : Column) (table : TableId) (olds tables : List Table) :
    Prop where
  same : column = { old.reread column.id table with foreignKey := column.foreignKey }
  foreignKey : Option.Rel (fun old join => join.Restates old table olds tables)
    old.foreignKey column.foreignKey

/-- A table that compiling the text of the table `old` gives. -/
structure Table.Recompiled (table old : Table) (olds tables : List Table) : Prop where
  name : table.name = old.name
  description : table.description = old.description
  storedName : table.storedName = old.storedName
  columns : List.Forall₂ (fun c d => d.Recompiled c table.id olds tables) old.columns table.columns

/-- A schema that compiling the text of the schema `old` gives. -/
structure Schema.Recompiled (schema old : Schema) : Prop where
  tables : List.Forall₂ (fun t u => u.Recompiled t old.tables schema.tables)
    old.tables schema.tables
  pending : ∀ t ∈ schema.tables, t.pendingJoins = []

/-- These are the tables that the document of the schema describes. -/
structure Schema.RereadAs (schema : Schema) (tables : List Table) : Prop where
  valid : schema.Valid
  legible : schema.Legible
  rereads : List.Forall₂ Table.Rereads schema.tables tables
  ids : (tables.map (·.id)).Nodup

namespace Schema.RereadAs

open Source

variable {schema : Schema} {tables : List Table} {linking : Linking}
  {keys : TableId × String → Option Join} {entity : String} {source : TableId}

theorem apart (h : schema.RereadAs tables) : ToldApart tables where
  ids := h.ids
  names := by
    rw [map_eq_of_forall₂ (f := (·.name)) h.rereads fun _ _ hr => hr.name]
    exact h.valid.names
  columns := by
    intro t ht
    obtain ⟨old, hold, hr⟩ := exists_left h.rereads ht
    rw [map_eq_of_forall₂ (f := (·.name)) hr.columns fun c d hd => by rw [hd]; rfl]
    exact h.legible.columnNames old hold

/-- What a foreign key refers to is among the tables again, under the same names. -/
theorem refersTo (h : schema.RereadAs tables) {t : Table} (ht : t ∈ schema.tables) {c : Column}
    (hc : c ∈ t.columns) {old : Join} (hf : c.foreignKey = some old) :
    ∃ oldPeer oldKey peer key, old.RefersTo schema.tables oldPeer oldKey ∧ peer ∈ tables ∧
      key ∈ peer.columns ∧ peer.name = oldPeer.name ∧ key.name = oldKey.name := by
  have hsound := h.valid.owners _ (mem_owningJoins_of_column ht hc hf)
  have hfits := hsound.fits rfl
  rw [Join.fitsForeignKey, Bool.and_eq_true, Option.any_eq_true] at hfits
  obtain ⟨⟨target, htarget, hcolumn⟩, -⟩ := hfits
  obtain ⟨id, hid⟩ := Option.isSome_iff_exists.mp hcolumn
  obtain ⟨oldPeer, hfound, hpresent⟩ := hsound.target target htarget
  obtain ⟨oldKey, hkey⟩ := Option.isSome_iff_exists.mp (hpresent id hid)
  obtain ⟨hpeerMem, hpeerId⟩ := mem_of_table? hfound
  have hkeyMem := List.mem_of_find?_eq_some hkey
  have hkeyId : oldKey.id = id := by simpa using List.find?_some hkey
  obtain ⟨peer, hpeer, hr⟩ := exists_right h.rereads hpeerMem
  obtain ⟨key, hkey, hd⟩ := exists_right hr.columns hkeyMem
  refine ⟨oldPeer, oldKey, peer, key, ⟨?_, hpeerMem, hkeyMem⟩, hpeer, hkey, hr.name, ?_⟩
  · rw [htarget, hpeerId, hkeyId, ← hid]
  · rw [hd]
    rfl

/-- The property of a foreign key is linked to a join that says what the foreign key said. -/
theorem link (h : schema.RereadAs tables) (entity : String) (source : TableId)
    (hl : linking.HasKeys tables keys) {t : Table} (ht : t ∈ schema.tables) {c : Column}
    (hc : c ∈ t.columns) {old : Join} (hf : c.foreignKey = some old) :
    ∃ reference next join, (propertyOf schema c).reference? = some reference ∧
      linking.link entity source c.name reference = .ok next ∧
      next.HasKeys tables (Function.update keys (source, c.name) (some join)) ∧
      join.Restates old source schema.tables tables := by
  obtain ⟨oldPeer, oldKey, peer, key, hr, hpeer, hkey, hpeerName, hkeyName⟩ := h.refersTo ht hc hf
  have hfits := (h.valid.owners _ (mem_owningJoins_of_column ht hc hf)).fits rfl
  rw [Join.fitsForeignKey, Bool.and_eq_true] at hfits
  have hkind : old.kind ≠ .manyToMany := by simpa using hfits.2
  obtain ⟨next, join, hlink, hkeys, hrestates⟩ :=
    link_restates h.apart hl hr hkind hpeer hkey hpeerName hkeyName c.name
  refine ⟨_, next, join, ?_, hlink, hkeys, hrestates⟩
  rw [reference?_propertyOf, hf]
  exact h.valid.referenceOf?_eq hr

/-- **All foreign keys of a table are linked.** -/
theorem linkAll (h : schema.RereadAs tables) (entity : String) (source : TableId)
    (hl : linking.HasKeys tables keys) {t : Table} (ht : t ∈ schema.tables) {columns : List Column}
    (hsub : ∀ c ∈ columns, c ∈ t.columns)
    (hn : (columns.map (·.name)).Nodup) (hnone : ∀ c ∈ columns, keys (source, c.name) = none) :
    ∃ next keys', linking.linkAll entity source (columns.map (propertyOf schema)) = .ok next ∧
      next.HasKeys tables keys' ∧
      (∀ p, (p.1 = source → p.2 ∉ columns.map (·.name)) → keys' p = keys p) ∧
      ∀ c ∈ columns, Option.Rel (fun old join => join.Restates old source schema.tables tables)
        c.foreignKey (keys' (source, c.name)) := by
  induction columns generalizing linking keys with
  | nil => exact ⟨linking, keys, rfl, hl, fun _ _ => rfl, by simp⟩
  | cons c rest ih =>
      rw [List.forall_mem_cons] at hsub hnone
      rw [List.map_cons, List.nodup_cons] at hn
      cases hf : c.foreignKey with
      | none =>
          obtain ⟨next, keys', hnext, hkeys, hsame, hlinked⟩ := ih hl hsub.2 hn.2 hnone.2
          refine ⟨next, keys', ?_, hkeys, ?_, List.forall_mem_cons.mpr ⟨?_, hlinked⟩⟩
          · rw [List.map_cons, Linking.linkAll, reference?_propertyOf, hf]
            exact hnext
          · intro p hp
            exact hsame p fun hs hmem => hp hs (List.mem_cons_of_mem _ hmem)
          · rw [hf, hsame _ fun _ => hn.1, hnone.1]
            exact .none
      | some old =>
          obtain ⟨reference, middle, join, hreference, hlink, hkeys, hrestates⟩ :=
            h.link entity source hl ht hsub.1 hf
          -- the other columns have other names, so they still have no key
          have hrest : ∀ d ∈ rest,
              Function.update keys (source, c.name) (some join) (source, d.name) = none := by
            intro d hd
            rw [Function.update_of_ne]
            · exact hnone.2 d hd
            · intro he
              exact hn.1 (List.mem_map.mpr ⟨d, hd, (Prod.mk.inj he).2⟩)
          obtain ⟨next, keys', hnext, hkeys', hsame, hlinked⟩ := ih hkeys hsub.2 hn.2 hrest
          refine ⟨next, keys', ?_, hkeys', ?_, List.forall_mem_cons.mpr ⟨?_, hlinked⟩⟩
          · rw [List.map_cons, Linking.linkAll, hreference]
            dsimp only
            rw [show (propertyOf schema c).name = c.name from rfl, hlink]
            exact hnext
          · intro p hp
            rw [hsame p fun hs hmem => hp hs (List.mem_cons_of_mem _ hmem), Function.update_of_ne]
            rintro rfl
            exact hp rfl List.mem_cons_self
          · rw [hf, hsame _ fun _ => hn.1, Function.update_self]
            exact .some hrestates

/-- **All foreign keys of a schema are linked.** -/
theorem linkEntities (h : schema.RereadAs tables) (hl : linking.HasKeys tables keys)
    {olds news : List Table} (hr : List.Forall₂ Table.Rereads olds news)
    (hsub : ∀ t ∈ olds, t ∈ schema.tables) (hids : (news.map (·.id)).Nodup)
    (hnone : ∀ t ∈ news, ∀ name, keys (t.id, name) = none) :
    ∃ next keys', linking.linkEntities ((olds.map (entityOf schema)).zip (news.map (·.id))) =
        .ok next ∧
      next.HasKeys tables keys' ∧
      (∀ p, p.1 ∉ news.map (·.id) → keys' p = keys p) ∧
      List.Forall₂ (fun old t => old.Rereads t ∧ ∀ c ∈ old.columns,
        Option.Rel (fun old join => join.Restates old t.id schema.tables tables)
          c.foreignKey (keys' (t.id, c.name))) olds news := by
  induction hr generalizing linking keys with
  | nil => exact ⟨linking, keys, rfl, hl, fun _ _ => rfl, .nil⟩
  | @cons old t olds news hread hrest ih =>
      rw [List.forall_mem_cons] at hsub hnone
      rw [List.map_cons, List.nodup_cons] at hids
      obtain ⟨middle, keys₁, hmiddle, hkeys₁, hsame₁, hlinked⟩ :=
        h.linkAll old.name t.id hl hsub.1 (fun _ hc => hc)
          (h.legible.columnNames old hsub.1) (fun c _ => hnone.1 c.name)
      -- only keys of this table were entered
      have hnone₁ : ∀ u ∈ news, ∀ name, keys₁ (u.id, name) = none := by
        intro u hu name
        rw [hsame₁]
        · exact hnone.2 u hu name
        · intro he
          exact absurd (List.mem_map.mpr ⟨u, hu, he⟩) hids.1
      obtain ⟨next, keys₂, hnext, hkeys₂, hsame₂, hall⟩ := ih hkeys₁ hsub.2 hids.2 hnone₁
      refine ⟨next, keys₂, ?_, hkeys₂, ?_, .cons ⟨hread, fun c hc => ?_⟩ hall⟩
      · rw [List.map_cons, List.map_cons, List.zip_cons_cons, Linking.linkEntities]
        show (inEntity old.name (linking.linkAll old.name t.id
          (old.columns.map (propertyOf schema))) >>= _) = _
        rw [hmiddle]
        exact hnext
      · intro p hp
        rw [List.map_cons, List.mem_cons, not_or] at hp
        rw [hsame₂ p hp.2, hsame₁ p fun he => absurd he hp.1]
      · rw [hsame₂ _ hids.1]
        exact hlinked c hc

end Schema.RereadAs

/-! ## The linked schema -/

theorem Table.Sound.withKeys {t : Table} (h : t.Sound) (keys : TableId × String → Option Join) :
    (t.withKeys keys).Sound where
  columnIds := by
    rw [Table.withKeys, List.map_map]
    exact h.columnIds
  home := by
    intro c hc
    obtain ⟨d, hd, rfl⟩ := List.mem_map.mp hc
    exact h.home d hd
  faultless := by
    intro c hc
    obtain ⟨d, hd, rfl⟩ := List.mem_map.mp hc
    exact h.faultless d hd
  key := by
    rcases h.key with hnil | ⟨key, hkey, hprimary⟩
    · left
      rw [Table.withKeys, hnil]
      rfl
    · right
      refine ⟨key.withKey keys t.id, ?_, hprimary⟩
      show (t.columns.map (·.withKey keys t.id)).filter _ = _
      rw [List.filter_map]
      exact congrArg (List.map _) hkey

/-- All foreign keys of the schema are linked among the tables that its document describes. -/
structure Schema.LinkedAs (schema : Schema) (tables : List Table)
    (keys : TableId × String → Option Join) (ids : IdSupply) (n : Nat) (linking : Source.Linking) :
    Prop where
  reread : schema.RereadAs tables
  plain : ∀ t ∈ tables, t.joins = []
  hasKeys : linking.HasKeys tables keys
  restates : List.Forall₂ (fun old t => old.Rereads t ∧ ∀ c ∈ old.columns,
    Option.Rel (fun old join => join.Restates old t.id schema.tables tables)
      c.foreignKey (keys (t.id, c.name))) schema.tables tables
  sound : linking.Sound ids n

namespace Schema.LinkedAs

variable {schema : Schema} {tables : List Table} {linking : Source.Linking}
  {keys : TableId × String → Option Join} {ids : IdSupply} {n : Nat}

theorem mem_bare (h : schema.LinkedAs tables keys ids n linking) {t : Table} :
    t ∈ linking.bare.tables ↔ ∃ u ∈ tables, u.withKeys keys = t := by
  rw [show linking.bare.tables = linking.tables from rfl, h.hasKeys.tables, List.mem_map]

/-- Every owning record stands on a column, and restates a foreign key of the schema. -/
theorem owner (h : schema.LinkedAs tables keys ids n linking) {o : TableId × Join}
    (ho : o ∈ linking.bare.owners) :
    ∃ t ∈ schema.tables, ∃ c ∈ t.columns, ∃ old, c.foreignKey = some old ∧
      o.2.Restates old o.1 schema.tables tables := by
  obtain ⟨t, ht, hid, hj⟩ := mem_owners.mp ho
  obtain ⟨u, hu, rfl⟩ := h.mem_bare.mp ht
  rcases List.mem_append.mp hj with hj | hj
  · obtain ⟨c, hc, hf⟩ := mem_foreignKeys.mp hj
    obtain ⟨d, hd, rfl⟩ := List.mem_map.mp hc
    obtain ⟨old, hold, hr, hkeys⟩ := exists_left h.restates hu
    obtain ⟨oldColumn, holdColumn, he⟩ := exists_left hr.columns hd
    have hname : d.name = oldColumn.name := by
      rw [he]
      rfl
    have hrel := hkeys oldColumn holdColumn
    rw [← hname, show keys (u.id, d.name) = some o.2 from hf] at hrel
    obtain ⟨oldJoin, hfold, hrestates⟩ := exists_of_rel_some hrel
    exact ⟨old, hold, oldColumn, holdColumn, oldJoin, hfold, hid ▸ hrestates⟩
  · -- no table had a join of its own
    rw [Table.pendingJoins, show (u.withKeys keys).joins = u.joins from rfl, h.plain u hu] at hj
    cases hj

theorem hasTarget (h : schema.LinkedAs tables keys ids n linking) {join : Join} {peer : Table}
    {key : Column} (hr : join.RefersTo tables peer key) : linking.bare.HasTarget join := by
  intro target htarget
  rw [hr.target, Option.some.injEq] at htarget
  subst htarget
  have hfound : linking.bare.table? peer.id = some (peer.withKeys keys) :=
    table?_of_mem (t := peer.withKeys keys) h.sound.drawn.ids_nodup
      (h.mem_bare.mpr ⟨peer, hr.table, rfl⟩)
  refine ⟨peer.withKeys keys, hfound, fun column hcolumn => ?_⟩
  rw [Option.some.injEq] at hcolumn
  subst hcolumn
  exact List.find?_isSome.mpr ⟨key.withKey keys peer.id,
    List.mem_map.mpr ⟨key, hr.column, rfl⟩, by simp [Column.withKey]⟩

/-- **What is linked is valid.** -/
theorem valid (h : schema.LinkedAs tables keys ids n linking) : linking.schema.Valid := by
  obtain ⟨howners, -, htables⟩ := Source.placeMirrors h.sound.mirrors
  have hnames : (linking.bare.tables.map (·.name)).Nodup := by
    rw [show linking.bare.tables = linking.tables from rfl, h.hasKeys.tables, List.map_map]
    exact h.reread.apart.names
  refine valid_of_placed ?_ ?_ ?_ ?_ ?_ h.sound.placed
  · exact htables.ids ▸ h.sound.drawn.ids_nodup
  · exact htables.names ▸ hnames
  · intro t ht
    obtain ⟨u, hu, he⟩ := htables.mem ht
    obtain ⟨v, hv, rfl⟩ := h.mem_bare.mp hu
    obtain ⟨old, hold, hr⟩ := exists_left h.reread.rereads hv
    exact (hr.sound.withKeys keys).of_withoutJoins he
  · intro o ho
    have hmem : (o.holder.id, o.join) ∈ linking.bare.owners :=
      howners ▸ owners_eq linking.schema ▸ List.mem_map.mpr ⟨o, ho, rfl⟩
    obtain ⟨t, ht, c, hc, old, hf, hr⟩ := h.owner hmem
    obtain ⟨-, -, peer, key, -, hrefers, -, -⟩ := hr.target
    -- its kind is that of a foreign key of the schema, so it fits one
    have hfits := (h.reread.valid.owners _ (mem_owningJoins_of_column ht hc hf)).fits rfl
    have hkind : o.join.kind = old.kind := hr.kind
    rw [Join.fitsForeignKey, Bool.and_eq_true] at hfits
    refine ⟨hr.source, htables.hasTarget (h.hasTarget hrefers), fun _ => ?_⟩
    rw [Join.fitsForeignKey, hrefers.target, hkind, Bool.and_eq_true]
    exact ⟨rfl, hfits.2⟩
  · have howners : linking.schema.owners = linking.bare.owners := howners
    rw [howners, h.sound.joinIds.nodup_iff]
    exact Source.numbered_nodup h.sound.declared

theorem tables_eq (h : schema.LinkedAs tables keys ids n linking) :
    linking.schema.tables.map (·.withoutJoins) =
      tables.map fun t => (t.withKeys keys).withoutJoins := by
  obtain ⟨-, -, htables⟩ := Source.placeMirrors h.sound.mirrors
  rw [show linking.schema.tables.map _ = _ from htables, Source.Linking.bare, h.hasKeys.tables,
    List.map_map]
  rfl

/-- What a join refers to is among the tables of the linked schema. -/
theorem refersTo (h : schema.LinkedAs tables keys ids n linking) {join : Join} {peer : Table}
    {key : Column} (hr : join.RefersTo tables peer key) :
    ∃ peer' key', join.RefersTo linking.schema.tables peer' key' ∧ peer'.name = peer.name ∧
      key'.name = key.name := by
  have hmem : (peer.withKeys keys).withoutJoins ∈ linking.schema.tables.map (·.withoutJoins) :=
    h.tables_eq ▸ List.mem_map.mpr ⟨peer, hr.table, rfl⟩
  obtain ⟨peer', hpeer', he⟩ := List.mem_map.mp hmem
  refine ⟨peer', key.withKey keys peer.id, ⟨?_, hpeer', ?_⟩,
    (Table.name_of_withoutJoins he).trans rfl, rfl⟩
  · rw [hr.target, Table.id_of_withoutJoins he]
    rfl
  · rw [Table.columns_of_withoutJoins he]
    exact List.mem_map.mpr ⟨key, hr.column, rfl⟩

theorem restated (h : schema.LinkedAs tables keys ids n linking) {source : TableId}
    {old join : Join} (hr : join.Restates old source schema.tables tables) :
    join.Restates old source schema.tables linking.schema.tables := by
  obtain ⟨oldPeer, oldKey, peer, key, hold, hnew, hpeer, hkey⟩ := hr.target
  obtain ⟨peer', key', hnew', hpeer', hkey'⟩ := h.refersTo hnew
  exact ⟨hr.same, oldPeer, oldKey, peer', key', hold, hnew', hpeer'.trans hpeer, hkey'.trans hkey⟩

/-- A table of the linked schema is the one of the schema again. -/
theorem recompiled_table (h : schema.LinkedAs tables keys ids n linking) {old t : Table}
    (hr : old.Rereads t) (hkeys : ∀ c ∈ old.columns,
      Option.Rel (fun old join => join.Restates old t.id schema.tables tables) c.foreignKey
        (keys (t.id, c.name))) :
    (t.withKeys keys).withoutJoins.Recompiled old schema.tables linking.schema.tables := by
  refine ⟨hr.name, hr.description, hr.storedName, ?_⟩
  show List.Forall₂ _ old.columns (t.columns.map (·.withKey keys t.id))
  refine List.forall₂_map_right_iff.mpr (forall₂_imp_mem hr.columns fun c hc d _ hd => ?_)
  have hname : d.name = c.name := by
    rw [hd]
    rfl
  refine ⟨?_, ?_⟩
  · rw [hd]
    rfl
  · show Option.Rel _ c.foreignKey (keys (t.id, d.name))
    rw [hname]
    exact rel_imp (fun _ _ hr => h.restated hr) (hkeys c hc)

theorem pendingJoins_eq_nil (h : schema.LinkedAs tables keys ids n linking) {t : Table}
    (ht : t ∈ linking.schema.tables) : t.pendingJoins = [] := by
  have hbare : linking.bare.collect Table.pendingJoins = [] := by
    refine List.flatMap_eq_nil_iff.mpr fun u hu => ?_
    obtain ⟨v, hv, rfl⟩ := h.mem_bare.mp hu
    rw [Table.pendingJoins, show (v.withKeys keys).joins = v.joins from rfl, h.plain v hv]
    rfl
  have hplaced := Source.pendingJoins_placeMirrors linking.bare fun m hm =>
    (h.sound.mirrors m hm).1
  exact List.flatMap_eq_nil_iff.mp (hplaced.trans hbare) t ht

/-- **The tables of the linked schema are those of the schema again.** -/
theorem recompiled (h : schema.LinkedAs tables keys ids n linking) :
    linking.schema.Recompiled schema := by
  refine ⟨?_, fun t ht => h.pendingJoins_eq_nil ht⟩
  have hall : List.Forall₂ (fun u t => t.Recompiled u schema.tables linking.schema.tables)
      schema.tables (tables.map fun t => (t.withKeys keys).withoutJoins) := by
    refine List.forall₂_map_right_iff.mpr (List.Forall₂.imp (fun old t hr => ?_) h.restates)
    exact h.recompiled_table hr.1 hr.2
  rw [← h.tables_eq, List.forall₂_map_right_iff] at hall
  exact List.Forall₂.imp (fun u t hr => ⟨hr.name, hr.description, hr.storedName, hr.columns⟩) hall

end Schema.LinkedAs

namespace Source

/-- **The text of a schema compiles, and what it gives is the schema again.** -/
theorem compile_textOf {schema : Schema} (hv : schema.Valid) (hl : schema.Legible)
    (ids : IdSupply) :
    ∃ parsed rest, compile (textOf schema) ids = (.ok parsed, rest) ∧ parsed.Recompiled schema := by
  obtain ⟨tables, htables, hrereads⟩ :=
    tablesOf_documentOf schema ids hv.tables
  have hdistinct := distinct_documentOf hv hl
  obtain ⟨-, -, hplain⟩ := tablesOf_eq_ok htables
  have hread : schema.RereadAs tables :=
    ⟨hv, hl, hrereads, (sound_of_tablesOf hdistinct htables).drawn.ids_nodup⟩
  have hnone : tables.map (·.withKeys fun _ => none) = tables := by
    refine (List.map_congr_left fun t ht => ?_).trans (List.map_id _)
    have hcolumns : t.columns.map (·.withKey (fun _ => none) t.id) = t.columns := by
      refine (List.map_congr_left fun c hc => ?_).trans (List.map_id _)
      rw [Column.withKey, ← (hplain t ht).1 c hc]
      rfl
    rw [Table.withKeys, hcolumns]
    rfl
  -- before the first foreign key is linked there is none
  have hstart : Linking.HasKeys ⟨tables, [], [], []⟩ tables fun _ => none := ⟨hnone.symm, rfl⟩
  obtain ⟨linking, keys, hlinking, hkeys, -, hlinked⟩ :=
    hread.linkEntities hstart hrereads (fun _ ht => ht) hread.ids (fun _ _ _ => rfl)
  have h : schema.LinkedAs tables keys ids (documentOf schema).tableIdCount linking :=
    ⟨hread, fun t ht => (hplain t ht).2, hkeys, hlinked,
      sound_of_linkEntities hdistinct htables hlinking⟩
  refine ⟨linking.schema, ids.skip (documentOf schema).idCount, ?_, h.recompiled⟩
  rw [compile, readDocument_textOf hv hl]
  refine Prod.ext ?_ rfl
  show (documentOf schema).schema ids = _
  rw [Document.schema, show (documentOf schema).entities = schema.tables.map (entityOf schema)
    from rfl, htables]
  show (Linking.linkEntities _ _ >>= _) = _
  have hvalidate := Schema.validate_iff.mpr h.valid
  rw [hlinking]
  simp only [bind, Except.bind, hvalidate, hkeys.deferred]
  rfl

end Source

end ErModel
