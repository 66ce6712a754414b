import ErModel.Proofs.Content
import ErModel.Proofs.Reconciling
import Mathlib.Data.List.Nodup
import Mathlib.Data.List.Perm.Basic

/-!
# Linking entities one by one

Linking the foreign keys of an entity changes the table of this entity and nothing of the others. It
looks at other tables only to find what a reference means, and there the order may be seen: a
many-to-many key that is linked takes its column away, and a later reference finds it no more, where
an earlier one still did. But if all comes out valid, then what the earlier one found is there in
the end, so a reference means the same at all times, and what it means can be looked up in the
tables that come out. With such a catalogue each entity can be linked by itself, and a document is
its entities put together, in whatever order.
-/

namespace ErModel

/-- The tables are those of before, but for columns that are gone. -/
def Within (tables before : List Table) : Prop :=
  ∀ t ∈ tables, ∃ u ∈ before, u.id = t.id ∧ u.name = t.name ∧
    ∀ c ∈ t.columns, ∃ d ∈ u.columns, d.id = c.id ∧ d.name = c.name

theorem Within.refl (tables : List Table) : Within tables tables :=
  fun t ht => ⟨t, ht, rfl, rfl, fun c hc => ⟨c, hc, rfl, rfl⟩⟩

theorem Within.trans {tables middle before : List Table} (h : Within tables middle)
    (h' : Within middle before) : Within tables before := by
  intro t ht
  obtain ⟨u, hu, hid, hname, hcolumns⟩ := h t ht
  obtain ⟨v, hv, hid', hname', hcolumns'⟩ := h' u hu
  refine ⟨v, hv, hid'.trans hid, hname'.trans hname, fun c hc => ?_⟩
  obtain ⟨d, hd, hdid, hdname⟩ := hcolumns c hc
  obtain ⟨e, he, heid, hename⟩ := hcolumns' d hd
  exact ⟨e, he, heid.trans hdid, hename.trans hdname⟩

/-- The join refers to what is among the tables. -/
def Join.RefersWithin (join : Join) (tables : List Table) : Prop :=
  ∀ target, join.target = some target → ∃ t ∈ tables, t.id = target.table ∧
    ∀ column, target.column = some column → ∃ c ∈ t.columns, c.id = column

theorem Table.mem_of_mem_link {table : Table} {property : String} {join : Join} {c : Column}
    (hc : c ∈ (table.link property join).columns) :
    ∃ d ∈ table.columns, d.id = c.id ∧ d.name = c.name := by
  have hsub : ((table.link property join).columns.map fun c => (c.id, c.name)).Sublist
      (table.columns.map fun c => (c.id, c.name)) := Table.columns_link_sublist fun _ => rfl
  obtain ⟨d, hd, he⟩ := List.mem_map.mp (hsub.subset (List.mem_map.mpr ⟨c, hc, rfl⟩))
  exact ⟨d, hd, congrArg (·.1) he, congrArg (·.2) he⟩

theorem Table.link_name {table : Table} {property : String} {join : Join} :
    (table.link property join).name = table.name := by
  unfold Table.link
  split <;> rfl

namespace Source

/-! ## What a reference means -/

/-- The reference means this column of this table among these tables. -/
structure Reference.Means (reference : Reference) (tables : List Table) (target : Table)
    (column : Column) : Prop where
  tableMem : target ∈ tables
  tableName : target.name = reference.target
  columnMem : column ∈ target.columns
  columnName : column.name = reference.column

theorem Reference.Means.within {reference : Reference} {tables before : List Table}
    {target : Table} {column : Column} (h : reference.Means tables target column)
    (hw : Within tables before) : ∃ target' column', reference.Means before target' column' ∧
      target'.id = target.id ∧ column'.id = column.id := by
  obtain ⟨u, hu, hid, hname, hcolumns⟩ := hw target h.tableMem
  obtain ⟨d, hd, hdid, hdname⟩ := hcolumns column h.columnMem
  exact ⟨u, d, ⟨hu, hname.trans h.tableName, hd, hdname.trans h.columnName⟩, hid, hdid⟩

/-- Names tell the tables apart, and the columns of each. -/
structure Linking.Named (linking : Linking) : Prop where
  tables : (linking.tables.map (·.name)).Nodup
  columns : ∀ t ∈ linking.tables, (t.columns.map (·.name)).Nodup

variable {linking next : Linking} {catalogue : List Table} {entity : String} {source : TableId}

/-- Linking a foreign key asks for nothing but the ids of what is referred to. -/
theorem Linking.linked_congr (linking : Linking) (entity : String) (source : TableId)
    (property : String) (reference : Reference) (choice : ReferenceChoice) {target target' : Table}
    {column column' : Column} (ht : target'.id = target.id) (hc : column'.id = column.id) :
    linking.linked entity source property reference target' column' choice =
      linking.linked entity source property reference target column choice := by
  rw [linked, linked, joinOf, joinOf, ht, hc]

/-- A foreign key is linked to what it means among the tables of the catalogue. -/
def Linking.LinksTo (catalogue : List Table) (linking next : Linking) (entity : String)
    (source : TableId) (property : String) (reference : Reference) : Prop :=
  ∃ target column choice, reference.Means catalogue target column ∧
    reference.options.foldlM ReferenceChoice.choose {} = .ok choice ∧
    next = linking.linked entity source property reference target column choice

/-- The foreign keys of properties are linked so. -/
def Linking.LinksAll (catalogue : List Table) (entity : String) (source : TableId) :
    Linking → List Property → Linking → Prop
  | linking, [], next => next = linking
  | linking, property :: rest, next =>
    match property.reference? with
    | none => LinksAll catalogue entity source linking rest next
    | some reference => ∃ middle,
      linking.LinksTo catalogue middle entity source property.name reference ∧
        LinksAll catalogue entity source middle rest next

/-- The foreign keys of entities are linked so. -/
def Linking.LinksEntities (catalogue : List Table) :
    Linking → List (Entity × TableId) → Linking → Prop
  | linking, [], next => next = linking
  | linking, (entity, source) :: rest, next => ∃ middle,
    linking.LinksAll catalogue entity.name source entity.properties middle ∧
      middle.LinksEntities catalogue rest next

/-- Where names tell all apart, a foreign key is linked to what it means among present tables. -/
theorem Linking.link_iff_linksTo (hn : linking.Named) {property : String} {reference : Reference} :
    linking.link entity source property reference = .ok next ↔
      linking.LinksTo linking.tables next entity source property reference := by
  have htarget : ∀ {t}, linking.target? reference.target = some t ↔
      t ∈ linking.tables ∧ t.name = reference.target := by
    intro t
    have hreverse : (linking.tables.reverse.map (·.name)).Nodup := by
      rw [List.map_reverse]
      exact List.nodup_reverse.mpr hn.tables
    refine ⟨fun h => ⟨List.mem_reverse.mp (List.mem_of_find?_eq_some h), ?_⟩, fun ⟨ht, hname⟩ => ?_⟩
    · simpa using List.find?_some h
    · rw [target?, ← hname]
      exact find?_key hreverse (List.mem_reverse.mpr ht)
  have hcolumn : ∀ {t : Table} {c}, t ∈ linking.tables →
      (t.columnNamed? reference.column = some c ↔ c ∈ t.columns ∧ c.name = reference.column) := by
    intro t c ht
    refine ⟨fun h => ⟨List.mem_of_find?_eq_some h, by simpa using List.find?_some h⟩,
      fun ⟨hc, hname⟩ => ?_⟩
    rw [Table.columnNamed?, ← hname]
    exact find?_key (hn.columns t ht) hc
  rw [link_iff]
  constructor
  · rintro ⟨t, c, choice, ht, hc, hchoice, hnext⟩
    obtain ⟨ht, hname⟩ := htarget.mp ht
    obtain ⟨hc, hcname⟩ := (hcolumn ht).mp hc
    exact ⟨t, c, choice, ⟨ht, hname, hc, hcname⟩, hchoice, hnext⟩
  · rintro ⟨t, c, choice, ⟨ht, hname, hc, hcname⟩, hchoice, hnext⟩
    exact ⟨t, c, choice, htarget.mpr ⟨ht, hname⟩, (hcolumn ht).mpr ⟨hc, hcname⟩, hchoice, hnext⟩

/-! ## What linking leaves of the tables -/

section

variable {property : String} {reference : Reference}

/-- A table is what it was, or it is the one that was linked. -/
theorem Linking.mem_tables_linked {target t : Table} {column : Column} {choice : ReferenceChoice}
    (ht : t ∈ (linking.linked entity source property reference target column choice).tables) :
    t ∈ linking.tables ∨
      ∃ u ∈ linking.tables, t = u.link property (linking.joinOf source target column choice) := by
  have ht : t ∈ (linking.bare.modifyTable source
    (·.link property (linking.joinOf source target column choice))).tables := ht
  rcases Schema.mem_of_modifyTable ht with ht | ⟨u, hu, he⟩
  · exact Or.inl ht
  · exact Or.inr ⟨u, (Schema.mem_of_table? hu).1, he⟩

theorem Linking.LinksTo.within
    (h : linking.LinksTo catalogue next entity source property reference) :
    Within next.tables linking.tables := by
  obtain ⟨target, column, choice, -, -, rfl⟩ := h
  intro t ht
  rcases mem_tables_linked ht with ht | ⟨u, hu, rfl⟩
  · exact Within.refl _ t ht
  · exact ⟨u, hu, Table.link_id.symm, Table.link_name.symm, fun c hc => Table.mem_of_mem_link hc⟩

theorem Linking.LinksTo.named (h : linking.LinksTo catalogue next entity source property reference)
    (hn : linking.Named) : next.Named := by
  obtain ⟨target, column, choice, -, -, rfl⟩ := h
  refine ⟨?_, fun t ht => ?_⟩
  · have hnames := map_modifyFirst (p := (·.id = source))
      (f := fun t : Table => t.link property (linking.joinOf source target column choice))
      (g := Table.name) (fun _ => Table.link_name) linking.tables
    rw [linked]
    exact hnames ▸ hn.tables
  · rcases mem_tables_linked ht with ht | ⟨u, hu, rfl⟩
    · exact hn.columns t ht
    · exact (hn.columns u hu).sublist (Table.columns_link_sublist fun _ => rfl)

end

theorem Linking.named_of_linkAll (hn : linking.Named) {properties : List Property}
    (hl : linkAll entity source linking properties = .ok next) : next.Named := by
  induction properties generalizing linking with
  | nil =>
      cases hl
      exact hn
  | cons property rest ih =>
      rw [linkAll] at hl
      split at hl
      · exact ih hn hl
      · obtain ⟨middle, hmiddle, hl⟩ := bind_eq_ok.mp hl
        exact ih (((link_iff_linksTo hn).mp hmiddle).named hn) hl

/-! ## From a catalogue to the tables at hand -/

/-- What is linked with a catalogue is linked without, if the catalogue has only what is left. -/
theorem Linking.linkAll_of_linksAll (hn : linking.Named) {properties : List Property}
    (hl : LinksAll catalogue entity source linking properties next) :
    next.Named ∧ (Within catalogue next.tables → Within catalogue linking.tables ∧
      linkAll entity source linking properties = .ok next) := by
  induction properties generalizing linking with
  | nil =>
      obtain rfl := hl
      exact ⟨hn, fun hw => ⟨hw, rfl⟩⟩
  | cons property rest ih =>
      rw [LinksAll] at hl
      rw [linkAll]
      cases hr : property.reference? with
      | none =>
          rw [hr] at hl
          exact ih hn hl
      | some reference =>
          rw [hr] at hl
          obtain ⟨middle, hone, hrest⟩ := hl
          obtain ⟨hnext, hback⟩ := ih (hone.named hn) hrest
          refine ⟨hnext, fun hw => ?_⟩
          obtain ⟨hmiddle, hall⟩ := hback hw
          have hbefore := hmiddle.trans hone.within
          obtain ⟨target, column, choice, hmeans, hchoice, rfl⟩ := hone
          obtain ⟨target', column', hmeans', ht, hc⟩ := hmeans.within hbefore
          refine ⟨hbefore, bind_eq_ok.mpr ⟨_, (link_iff_linksTo hn).mpr
            ⟨target', column', choice, hmeans', hchoice, ?_⟩, hall⟩⟩
          exact (linked_congr _ _ _ _ _ _ ht hc).symm

theorem Linking.linkEntities_of_linksEntities (hn : linking.Named)
    {sources : List (Entity × TableId)} (hl : LinksEntities catalogue linking sources next)
    (hw : Within catalogue next.tables) :
    Within catalogue linking.tables ∧ linkEntities linking sources = .ok next := by
  induction sources generalizing linking with
  | nil =>
      obtain rfl := hl
      exact ⟨hw, rfl⟩
  | cons s rest ih =>
      obtain ⟨middle, hone, hrest⟩ := hl
      obtain ⟨hmiddle, hback⟩ := linkAll_of_linksAll hn hone
      obtain ⟨hw', hall⟩ := ih hmiddle hrest
      obtain ⟨hbefore, hlinked⟩ := hback hw'
      refine ⟨hbefore, bind_eq_ok.mpr ⟨middle, ?_, hall⟩⟩
      rw [hlinked, inEntity_ok]

/-! ## From the tables at hand to the catalogue of what comes out -/

variable {ids : IdSupply} {n : Nat}

/-- The join is the only record that comes with a foreign key. -/
theorem Linking.Sound.owners_linked (h : linking.Sound ids n) {property : Property}
    (hawaits : linking.Awaits source [property]) (reference : Reference) (target : Table)
    (column : Column) (choice : ReferenceChoice) :
    (linking.linked entity source property.name reference target column choice).bare.owners.Perm
      ((source, linking.joinOf source target column choice) :: linking.bare.owners) := by
  obtain ⟨table, htable, rfl, hcolumns⟩ := hawaits
  obtain ⟨c, hc, hname, hkey⟩ := hcolumns property List.mem_cons_self
  exact owners_of_link (Schema.table?_of_mem h.drawn.ids_nodup htable)
    (h.columnNames table htable) rfl hc hname hkey

/-- What a join of a linked document refers to was found by its names, and has them in the end. -/
theorem Linking.Sound.means_of_refersWithin (h : linking.Sound ids n)
    (hw : Within catalogue linking.tables) {reference : Reference} {target : Table}
    {column : Column} (hmeans : reference.Means linking.tables target column)
    {choice : ReferenceChoice}
    (hrefers : (linking.joinOf source target column choice).RefersWithin catalogue) :
    ∃ target' column', reference.Means catalogue target' column' ∧ target'.id = target.id ∧
      column'.id = column.id := by
  obtain ⟨t, ht, hid, hcolumn⟩ := hrefers _ rfl
  obtain ⟨c, hc, hcid⟩ := hcolumn _ rfl
  obtain ⟨u, hu, huid, huname, hucolumns⟩ := hw t ht
  obtain rfl : u = target := eq_of_key_eq h.drawn.ids_nodup hu hmeans.tableMem (huid.trans hid)
  obtain ⟨d, hd, hdid, hdname⟩ := hucolumns c hc
  obtain rfl : d = column :=
    eq_of_key_eq (h.drawn.columnIds hu) hd hmeans.columnMem (hdid.trans hcid)
  exact ⟨t, c, ⟨ht, huname.symm.trans hmeans.tableName, hc, hdname.symm.trans hmeans.columnName⟩,
    hid, hcid⟩

/-- What is linked is linked with a catalogue as well, if all joins refer to what is there. -/
theorem Linking.Sound.linksAll (h : linking.Sound ids n) (hn : linking.Named)
    {properties : List Property} (hnames : (properties.map (·.name)).Nodup)
    (hawaits : linking.Awaits source properties)
    (hl : Linking.linkAll entity source linking properties = .ok next)
    (hw : Within catalogue next.tables)
    (hrefers : ∀ o ∈ next.bare.owners, o.2.RefersWithin catalogue) :
    LinksAll catalogue entity source linking properties next ∧
      Within catalogue linking.tables ∧ linking.bare.owners ⊆ next.bare.owners := by
  induction properties generalizing linking with
  | nil =>
      cases hl
      exact ⟨rfl, hw, fun _ ho => ho⟩
  | cons property rest ih =>
      rw [List.map_cons, List.nodup_cons] at hnames
      obtain ⟨t, ht, hid, htAwaits⟩ := hawaits
      have hrest : linking.Awaits source rest :=
        ⟨t, ht, hid, fun p hp => htAwaits p (List.mem_cons_of_mem _ hp)⟩
      rw [LinksAll]
      rw [Linking.linkAll] at hl
      cases hr : property.reference? with
      | none =>
          rw [hr] at hl
          exact ih h hn hnames.2 hrest hl
      | some reference =>
          rw [hr] at hl
          obtain ⟨middle, hmiddle, hl⟩ := bind_eq_ok.mp hl
          have hone : linking.Awaits source [property] := by
            refine ⟨t, ht, hid, fun p hp => htAwaits p ?_⟩
            rw [List.mem_singleton.mp hp]
            exact List.mem_cons_self
          have hlinks := (link_iff_linksTo hn).mp hmiddle
          obtain ⟨hall, hwithin, howners⟩ := ih (h.link hone hmiddle) (hlinks.named hn) hnames.2
            (hrest.link (fun _ => hnames.1) h.drawn.ids_nodup hmiddle) hl
          have hbefore := hwithin.trans hlinks.within
          obtain ⟨target, column, choice, hmeans, hchoice, rfl⟩ := hlinks
          have hadded : (linking.linked entity source property.name reference target column
              choice).bare.owners.Perm _ := h.owners_linked hone reference target column choice
          have hjoin := howners (hadded.mem_iff.mpr List.mem_cons_self)
          obtain ⟨target', column', hmeans', hti, hci⟩ :=
            h.means_of_refersWithin hbefore hmeans (hrefers _ hjoin)
          refine ⟨⟨_, ⟨target', column', choice, hmeans', hchoice, ?_⟩, hall⟩, hbefore, ?_⟩
          · exact (linked_congr _ _ _ _ _ _ hti hci).symm
          · exact fun o ho => howners (hadded.mem_iff.mpr (List.mem_cons_of_mem _ ho))

theorem Linking.Sound.linksEntities (h : linking.Sound ids n) (hn : linking.Named)
    {sources : List (Entity × TableId)}
    (hdistinct : ∀ s ∈ sources, (s.1.properties.map (·.name)).Nodup)
    (hsources : (sources.map (·.2)).Nodup)
    (hawaits : ∀ s ∈ sources, linking.Awaits s.2 s.1.properties)
    (hl : Linking.linkEntities linking sources = .ok next) (hw : Within catalogue next.tables)
    (hrefers : ∀ o ∈ next.bare.owners, o.2.RefersWithin catalogue) :
    LinksEntities catalogue linking sources next ∧ Within catalogue linking.tables ∧
      linking.bare.owners ⊆ next.bare.owners := by
  induction sources generalizing linking with
  | nil =>
      cases hl
      exact ⟨rfl, hw, fun _ ho => ho⟩
  | cons s rest ih =>
      obtain ⟨entity, source⟩ := s
      rw [List.forall_mem_cons] at hdistinct hawaits
      rw [List.map_cons, List.nodup_cons] at hsources
      obtain ⟨middle, hmiddle, hl⟩ := bind_eq_ok.mp hl
      have hmiddle := inEntity_eq_ok hmiddle
      have hstill : ∀ s ∈ rest, middle.Awaits s.2 s.1.properties := fun s hs =>
        (hawaits.2 s hs).linkAll (fun he => hsources.1 (List.mem_map.mpr ⟨s, hs, he⟩))
          h.drawn.ids_nodup hmiddle
      obtain ⟨hall, hwithin, howners⟩ := ih (h.linkAll hdistinct.1 hawaits.1 hmiddle)
        (named_of_linkAll hn hmiddle) hdistinct.2 hsources.2 hstill hl
      obtain ⟨hone, hbefore, hmine⟩ := h.linksAll hn hdistinct.1 hawaits.1 hmiddle hwithin
        fun o ho => hrefers o (howners ho)
      exact ⟨⟨middle, hone, hall⟩, hbefore, fun o ho => howners (hmine ho)⟩

/-! ## Entities by themselves -/

/-- A part of a document that is being linked, with what is linked before it and the tables that
come behind it. -/
def Linking.around (before part : Linking) (behind : List Table) : Linking where
  tables := before.tables ++ part.tables ++ behind
  declared := part.declared ++ before.declared
  mirrors := before.mirrors ++ part.mirrors
  deferred := before.deferred ++ part.deferred

/-- The part is of one table, and declares joins from it alone. -/
structure Linking.Of (part : Linking) (source : TableId) : Prop where
  table : ∃ t, part.tables = [t] ∧ t.id = source
  declared : ∀ pair ∈ part.declared, pair.1 = source

/-- There is neither this table nor a join from it. -/
structure Linking.Without (linking : Linking) (source : TableId) : Prop where
  tables : ∀ t ∈ linking.tables, t.id ≠ source
  declared : ∀ pair ∈ linking.declared, pair.1 ≠ source

section

variable {before part : Linking} {behind : List Table}

theorem Linking.Of.linked (h : part.Of source) (property : String) (reference : Reference)
    (target : Table) (column : Column) (choice : ReferenceChoice) :
    (part.linked entity source property reference target column choice).Of source := by
  obtain ⟨t, ht, hid⟩ := h.table
  refine ⟨⟨t.link property (part.joinOf source target column choice), ?_, ?_⟩, ?_⟩
  · rw [Linking.linked, ht, modifyFirst, if_pos (by simpa using hid)]
  · rw [Table.link_id, hid]
  · exact List.forall_mem_cons.mpr ⟨rfl, h.declared⟩

/-- Joins are numbered among those between the same tables, so the parts do not count for each
other, and none changes the table of another. -/
theorem Linking.linked_around (hb : before.Without source) (h : part.Of source) (property : String)
    (reference : Reference) (target : Table) (column : Column) (choice : ReferenceChoice) :
    (before.around part behind).linked entity source property reference target column choice =
      before.around (part.linked entity source property reference target column choice) behind := by
  have hnone : before.declared.count (source, target.id) = 0 :=
    List.count_eq_zero.mpr fun hmem => hb.declared _ hmem rfl
  have hjoin : (before.around part behind).joinOf source target column choice =
      part.joinOf source target column choice := by
    rw [joinOf, joinOf, around, List.count_append, hnone, Nat.add_zero]
  obtain ⟨t, ht, hid⟩ := h.table
  have htables : ∀ f : Table → Table, modifyFirst (·.id = source) f
      (before.around part behind).tables =
        before.tables ++ modifyFirst (·.id = source) f part.tables ++ behind := by
    intro f
    have hother : ∀ u ∈ before.tables, decide (u.id = source) = false := fun u hu =>
      decide_eq_false (hb.tables u hu)
    rw [around, ht, List.append_assoc, List.singleton_append,
      modifyFirst_append_cons (by simpa using hid) hother, modifyFirst, if_pos (by simpa using hid),
      List.append_assoc, List.singleton_append]
  rw [linked, linked, hjoin, htables]
  simp only [around, List.cons_append, List.append_assoc]

theorem Linking.linksAll_around (hb : before.Without source) (h : part.Of source)
    {properties : List Property} :
    LinksAll catalogue entity source (before.around part behind) properties next ↔
      ∃ part', LinksAll catalogue entity source part properties part' ∧ part'.Of source ∧
        next = before.around part' behind := by
  induction properties generalizing part with
  | nil =>
      refine ⟨fun hnext => ⟨part, rfl, h, hnext⟩, ?_⟩
      rintro ⟨_, rfl, -, hnext⟩
      exact hnext
  | cons property rest ih =>
      rw [LinksAll]
      simp only [LinksAll]
      cases property.reference? with
      | none => exact ih h
      | some reference =>
          constructor
          · rintro ⟨_, ⟨target, column, choice, hmeans, hchoice, rfl⟩, hrest⟩
            rw [linked_around hb h] at hrest
            obtain ⟨part', hall, hof, hnext⟩ := (ih (h.linked _ _ _ _ _)).mp hrest
            exact ⟨part', ⟨_, ⟨target, column, choice, hmeans, hchoice, rfl⟩, hall⟩, hof, hnext⟩
          · rintro ⟨part', ⟨_, ⟨target, column, choice, hmeans, hchoice, rfl⟩, hall⟩, hof, hnext⟩
            refine ⟨_, ⟨target, column, choice, hmeans, hchoice, rfl⟩, ?_⟩
            rw [linked_around hb h]
            exact (ih (h.linked _ _ _ _ _)).mpr ⟨part', hall, hof, hnext⟩

/-- What is linked of one table is without the others. -/
theorem Linking.Without.around {id : TableId} (hb : before.Without id) (h : part.Of source)
    (hne : source ≠ id) : (before.around part []).Without id := by
  obtain ⟨t, ht, hid⟩ := h.table
  refine ⟨fun u hu => ?_, fun pair hpair => ?_⟩
  · rw [Linking.around, ht, List.append_nil] at hu
    rcases List.mem_append.mp hu with hu | hu
    · exact hb.tables u hu
    · rw [List.mem_singleton.mp hu, hid]
      exact hne
  · rcases List.mem_append.mp hpair with hpair | hpair
    · rw [h.declared pair hpair]
      exact hne
    · exact hb.declared pair hpair

end

/-- Tables of which nothing is linked yet. -/
def Linking.start (tables : List Table) : Linking := ⟨tables, [], [], []⟩

/-- The part that an entity is by itself, beside its table. -/
def Linking.PartOf (catalogue : List Table) (e : Entity × Table) (part : Linking) : Prop :=
  LinksAll catalogue e.1.name e.2.id (start [e.2]) e.1.properties part ∧ part.Of e.2.id

/-- The parts one behind the other, with what is linked before. -/
def Linking.together (before : Linking) (parts : List Linking) : Linking :=
  parts.foldl (fun before part => before.around part []) before

theorem Linking.linksEntities_iff {before : Linking} {entities : List (Entity × Table)}
    (hids : (entities.map (·.2.id)).Nodup) (hb : ∀ e ∈ entities, before.Without e.2.id) :
    LinksEntities catalogue (before.around (start []) (entities.map (·.2)))
        (entities.map fun e => (e.1, e.2.id)) next ↔
      ∃ parts, List.Forall₂ (PartOf catalogue) entities parts ∧ next = before.together parts := by
  induction entities generalizing before with
  | nil =>
      have hall : before.around (start []) [] = before := by
        simp only [around, start, List.append_nil, List.nil_append]
      rw [List.map_nil, List.map_nil, hall, LinksEntities]
      refine ⟨fun h => ⟨[], .nil, h⟩, ?_⟩
      rintro ⟨_, ⟨⟩, h⟩
      exact h
  | cons e rest ih =>
      rw [List.map_cons, List.nodup_cons] at hids
      rw [List.forall_mem_cons] at hb
      have hfirst : before.around (start []) (e.2 :: rest.map (·.2)) =
          before.around (start [e.2]) (rest.map (·.2)) := by
        simp only [around, start, List.append_nil, List.append_assoc, List.singleton_append]
      have hstart : (start [e.2]).Of e.2.id :=
        ⟨⟨e.2, rfl, rfl⟩, fun _ h => absurd h List.not_mem_nil⟩
      -- a part that is linked joins what is linked before the next one
      have hnext : ∀ {part : Linking}, part.Of e.2.id →
          before.around part (rest.map (·.2)) =
              (before.around part []).around (start []) (rest.map (·.2)) ∧
            ∀ e' ∈ rest, (before.around part []).Without e'.2.id := by
        intro part hof
        refine ⟨by simp only [around, start, List.append_nil, List.nil_append], fun e' he' => ?_⟩
        exact (hb.2 e' he').around hof fun he => hids.1 (List.mem_map.mpr ⟨e', he', he.symm⟩)
      rw [List.map_cons, List.map_cons, hfirst, LinksEntities]
      constructor
      · rintro ⟨middle, hone, hrest⟩
        obtain ⟨part, hpart, hof, rfl⟩ := (linksAll_around hb.1 hstart).mp hone
        obtain ⟨hmiddle, hwithout⟩ := hnext hof
        rw [hmiddle] at hrest
        obtain ⟨parts, hparts, rfl⟩ := (ih hids.2 hwithout).mp hrest
        exact ⟨part :: parts, .cons ⟨hpart, hof⟩ hparts, rfl⟩
      · rintro ⟨_, hall, rfl⟩
        obtain ⟨part, parts, ⟨hpart, hof⟩, hparts, rfl⟩ := List.forall₂_cons_left_iff.mp hall
        obtain ⟨hmiddle, hwithout⟩ := hnext hof
        refine ⟨_, (linksAll_around hb.1 hstart).mpr ⟨part, hpart, hof, rfl⟩, ?_⟩
        rw [hmiddle]
        exact (ih hids.2 hwithout).mpr ⟨parts, hparts, rfl⟩

/-- What parts are together is what each of them contributes. -/
theorem Linking.together_eq (before : Linking) (parts : List Linking) :
    (before.together parts).tables = before.tables ++ parts.flatMap (·.tables) ∧
      (before.together parts).mirrors = before.mirrors ++ parts.flatMap (·.mirrors) ∧
      (before.together parts).deferred = before.deferred ++ parts.flatMap (·.deferred) := by
  induction parts generalizing before with
  | nil => simp [together]
  | cons part rest ih =>
      obtain ⟨htables, hmirrors, hdeferred⟩ := ih (before.around part [])
      rw [together, List.foldl_cons]
      refine ⟨htables.trans ?_, hmirrors.trans ?_, hdeferred.trans ?_⟩ <;>
        simp only [around, List.append_nil, List.flatMap_cons, List.append_assoc]

/-! ## In whatever order -/

/-- The mirrors of a linked document are put into its tables all at once. -/
theorem Linking.schema_holding (hids : (linking.tables.map (·.id)).Nodup) :
    linking.schema = linking.bare.holding linking.mirrors :=
  Schema.foldl_addJoin hids linking.mirrors

/-- Neither the order of tables matters to the content of a linked document, nor that of mirrors. -/
theorem Linking.content_of_perm (hids : (linking.tables.map (·.id)).Nodup)
    (htables : linking.tables.Perm next.tables) (hmirrors : linking.mirrors.Perm next.mirrors) :
    linking.schema.content = next.schema.content := by
  rw [schema_holding hids, schema_holding ((htables.map _).nodup_iff.mp hids)]
  exact Schema.content_holding hmirrors (Schema.content_of_perm htables)

/-- Where a linked document is valid, its joins refer to what it has. -/
theorem Linking.Sound.refersWithin (h : linking.Sound ids n) (hv : linking.schema.Valid)
    {o : TableId × Join} (ho : o ∈ linking.bare.owners) : o.2.RefersWithin linking.tables := by
  obtain ⟨howners, -, htables⟩ := placeMirrors h.mirrors
  obtain ⟨owned, howned, rfl⟩ := Schema.exists_owned
    (show o ∈ linking.schema.owners from howners.symm ▸ ho)
  intro target ht
  have hsame : linking.bare.SameTables linking.schema := Eq.symm htables
  obtain ⟨peer, hpeer, hcolumn⟩ := hsame.hasTarget (hv.owners owned howned).target target ht
  obtain ⟨hmem, hid⟩ := Schema.mem_of_table? hpeer
  refine ⟨peer, hmem, hid, fun column hc => ?_⟩
  obtain ⟨c, hc⟩ := Option.isSome_iff_exists.mp (hcolumn column hc)
  exact ⟨c, List.mem_of_find?_eq_some hc, by simpa using List.find?_some hc⟩

section

variable {entities : List (Entity × Table)} {parts : List Linking}

theorem Linking.around_start (tables : List Table) :
    (start []).around (start []) tables = start tables := rfl

theorem Linking.without_start (id : TableId) : (start []).Without id :=
  ⟨fun _ h => absurd h List.not_mem_nil, fun _ h => absurd h List.not_mem_nil⟩

/-- A document whose linking comes out valid is linked part by part, with the tables that come out
as the catalogue. -/
theorem Linking.exists_parts (hs : (start (entities.map (·.2))).Sound ids n)
    (hn : (entities.map (·.2.name)).Nodup)
    (hdistinct : ∀ e ∈ entities, (e.1.properties.map (·.name)).Nodup)
    (hawaits : ∀ e ∈ entities, (start (entities.map (·.2))).Awaits e.2.id e.1.properties)
    (hl : linkEntities (start (entities.map (·.2))) (entities.map fun e => (e.1, e.2.id)) =
      .ok next)
    (hv : next.schema.Valid) :
    ∃ parts, List.Forall₂ (PartOf next.tables) entities parts ∧
      next = (start []).together parts := by
  have hids : (entities.map (·.2.id)).Nodup := by
    have := hs.drawn.ids_nodup
    rwa [bare, start, List.map_map] at this
  have hsources : ((entities.map fun e => (e.1, e.2.id)).map (·.2)).Nodup := by
    rwa [List.map_map]
  have hnamed : (start (entities.map (·.2))).Named :=
    ⟨by rwa [start, List.map_map], fun t ht => hs.columnNames t ht⟩
  have hsound : next.Sound ids n := hs.linkEntities (List.forall_mem_map.mpr hdistinct) hsources
    (List.forall_mem_map.mpr hawaits) hl
  obtain ⟨hlinks, -, -⟩ := hs.linksEntities hnamed (List.forall_mem_map.mpr hdistinct) hsources
    (List.forall_mem_map.mpr hawaits) hl (Within.refl next.tables)
    fun o ho => hsound.refersWithin hv ho
  exact (linksEntities_iff hids fun e _ => without_start e.2.id).mp (around_start _ ▸ hlinks)

/-- Parts that are linked with a catalogue are a linked document, if all of the catalogue comes
out. -/
theorem Linking.linkEntities_of_parts (hids : (entities.map (·.2.id)).Nodup)
    (hn : (start (entities.map (·.2))).Named)
    (hparts : List.Forall₂ (PartOf catalogue) entities parts)
    (hw : Within catalogue ((start []).together parts).tables) :
    linkEntities (start (entities.map (·.2))) (entities.map fun e => (e.1, e.2.id)) =
      .ok ((start []).together parts) := by
  have hlinks := (linksEntities_iff hids fun e _ => without_start e.2.id).mpr ⟨parts, hparts, rfl⟩
  rw [around_start] at hlinks
  exact (linkEntities_of_linksEntities hn hlinks hw).2

end

/-- **Entities may be linked in any order**, if what comes out is valid. -/
theorem Linking.linkEntities_perm {entities entities' : List (Entity × Table)}
    (hperm : entities.Perm entities') (hs : (start (entities.map (·.2))).Sound ids n)
    (hn : (entities.map (·.2.name)).Nodup)
    (hdistinct : ∀ e ∈ entities, (e.1.properties.map (·.name)).Nodup)
    (hawaits : ∀ e ∈ entities, (start (entities.map (·.2))).Awaits e.2.id e.1.properties)
    (hl : linkEntities (start (entities.map (·.2))) (entities.map fun e => (e.1, e.2.id)) =
      .ok next)
    (hv : next.schema.Valid) :
    ∃ next', linkEntities (start (entities'.map (·.2))) (entities'.map fun e => (e.1, e.2.id)) =
        .ok next' ∧ next.tables.Perm next'.tables ∧ next.mirrors.Perm next'.mirrors ∧
      next.deferred.Perm next'.deferred := by
  have hids : (entities.map (·.2.id)).Nodup := by
    have := hs.drawn.ids_nodup
    rwa [bare, start, List.map_map] at this
  obtain ⟨parts, hparts, rfl⟩ := exists_parts hs hn hdistinct hawaits hl hv
  obtain ⟨parts', hparts', hpermParts⟩ := List.perm_comp_forall₂ hperm.symm hparts
  obtain ⟨htables, hmirrors, hdeferred⟩ := together_eq (start []) parts
  obtain ⟨htables', hmirrors', hdeferred'⟩ := together_eq (start []) parts'
  have hpermTables :
      ((start []).together parts).tables.Perm ((start []).together parts').tables := by
    rw [htables, htables']
    exact (hpermParts.symm.flatMap_right _).append_left _
  have hnamed' : (start (entities'.map (·.2))).Named := by
    refine ⟨?_, fun t ht => hs.columnNames t ((hperm.map _).mem_iff.mpr ht)⟩
    rw [start, List.map_map]
    exact (hperm.map _).nodup_iff.mp hn
  refine ⟨_, linkEntities_of_parts ((hperm.map _).nodup_iff.mp hids) hnamed' hparts'
    fun t ht => Within.refl _ t (hpermTables.mem_iff.mp ht), hpermTables, ?_, ?_⟩
  · rw [hmirrors, hmirrors']
    exact (hpermParts.symm.flatMap_right _).append_left _
  · rw [hdeferred, hdeferred']
    exact (hpermParts.symm.flatMap_right _).append_left _

end Source

end ErModel
