import ErModel.Proofs.Breaking
import ErModel.Proofs.ForeignKeys

/-!
# What a junction table makes of a schema

A many-to-many join is not configured in its place. It goes away, with the column that it may have
had, and a new table comes at the end of the schema, with one foreign key for each side. The sides
are the table that declares the join and the one that was chosen, and they may be the same table;
then it has two mirrors, since the joins are two.

A junction is refused if a side has no column to refer to, or if another table has its name. That it
would break the schema is another matter, and another error.
-/

namespace ErModel

/-- A column that is left without its join keeps its type. -/
theorem Column.dataType_without (column : Column) (join : JoinId) :
    (column.without join).dataType = column.dataType := by
  unfold without
  split <;> rfl

theorem bind_pure_eq_error {ε α β : Type} {x : Except ε α} {f : α → β} {e : ε} :
    (x >>= fun a => pure (f a)) = .error e ↔ x = .error e := by
  cases x with
  | ok a => exact iff_of_false nofun nofun
  | error e' => exact Iff.of_eq (by simp [bind, Except.bind])

/-- The column that a junction refers to on a side: the one that was named, or the primary key if no
column of the side has that name. -/
structure Table.Referenced (side : Table) (choice : Option JunctionColumn) (key : Column) :
    Prop where
  column : key ∈ side.columns
  named : ∀ n, choice = some n → (∃ c ∈ side.columns, c.name = n.referenced) →
    key.name = n.referenced
  primary : (∀ n, choice = some n → ∀ c ∈ side.columns, c.name ≠ n.referenced) →
    key.primaryKey = true

/-- There is neither a column of the name that was given, nor a primary key. -/
structure Table.OffersNone (side : Table) (choice : Option JunctionColumn) : Prop where
  named : ∀ n, choice = some n → ∀ c ∈ side.columns, c.name ≠ n.referenced
  primary : ∀ c ∈ side.columns, c.primaryKey = false

namespace Schema

/-- The column `fk` of the junction `J` is a foreign key for a side, which has its mirror. -/
structure SideAt (schema : Schema) (config : JoinConfig) (J : Table) (side : TableId) (fk key : Column)
    (join : Join) : Prop where
  carries : fk.foreignKey = some join
  notKey : fk.primaryKey = false
  kind : join.kind = .oneToMany
  ends : join.source = J.id ∧ join.target = some ⟨side, some key.id⟩
  actions : join.onDelete = config.onDelete ∧ join.onUpdate = config.onUpdate
  dataType : fk.dataType = key.dataType
  mirrored : ∃ t ∈ schema.tables, t.id = side ∧ schema.mirrors join.id = [(t, join.mirror)] ∧
    ∃ c ∈ t.columns, c.id = key.id ∧ c.dataType = fk.dataType

/-- The junction `J` between `A` and `B` has replaced a join. -/
structure Replaces (schema next : Schema) (join : JoinId) (config : JoinConfig) (A B J : Table)
    (pk fkA fkB keyA keyB : Column) (toA toB : Join) : Prop where
  /-- The other tables lose the join and its column, unless that is their key, and get mirrors. -/
  frame : next.tables = schema.tables.map (fun t => t.rejoined join [toA, toB]
    ((t.columns.filter fun c => c.primaryKey || !c.carries join).map (·.without join))) ++ [J]
  id : J.id ∉ schema.tables.map (·.id)
  name : J.name = junctionName config A B ∧ J.name ∉ schema.tables.map (·.name)
  columns : J.columns = [pk, fkA, fkB]
  columnNames : (J.columns.map (·.name)).Nodup
  key : pk.primaryKey = true ∧ J.primaryKey = some pk.id ∧ pk.foreignKey = none
  referencedA : A.Referenced config.joinColumn keyA
  referencedB : B.Referenced config.inverseColumn keyB
  sideA : next.SideAt config J A.id fkA keyA toA
  sideB : next.SideAt config J B.id fkB keyB toB
  joinIds : toA.id ≠ toB.id

end Schema

/-! ## The columns referred to -/

namespace Table

variable {side : Table} {choice : Option JunctionColumn}

theorem referenced_of_junctionKey? {key : Column} (h : side.junctionKey? choice = some key) :
    side.Referenced choice key := by
  refine ⟨mem_of_junctionKey? h, ?_, ?_⟩
  · rintro n rfl ⟨c, hc, hname⟩
    have hsome : (side.columnNamed? n.referenced).isSome = true :=
      List.find?_isSome.mpr ⟨c, hc, by simpa using hname⟩
    obtain ⟨found, hfound⟩ := Option.isSome_iff_exists.mp hsome
    rw [junctionKey?, Option.bind_some, hfound, Option.some_or, Option.some.injEq] at h
    rw [← h]
    simpa using List.find?_some hfound
  · intro hnone
    have hunnamed : (choice.bind fun n => side.columnNamed? n.referenced) = none := by
      rw [Option.bind_eq_none_iff]
      intro n hn
      exact List.find?_eq_none.mpr fun c hc => by simpa using hnone n hn c hc
    rw [junctionKey?, hunnamed, Option.none_or] at h
    exact List.find?_some (p := fun c : Column => c.primaryKey) h

theorem junctionKey?_eq_none_iff : side.junctionKey? choice = none ↔ side.OffersNone choice := by
  rw [junctionKey?, Option.or_eq_none_iff, Option.bind_eq_none_iff, primaryKeyColumn?,
    List.find?_eq_none]
  constructor
  · rintro ⟨hnamed, hprimary⟩
    refine ⟨fun n hn c hc => ?_, fun c hc => by simpa using hprimary c hc⟩
    simpa using List.find?_eq_none.mp (hnamed n hn) c hc
  · rintro ⟨hnamed, hprimary⟩
    refine ⟨fun n hn => List.find?_eq_none.mpr fun c hc => ?_, fun c hc => by simp [hprimary c hc]⟩
    simpa using hnamed n hn c hc

theorem checkReferenced_cases (table : Table) (column : Option ColumnId) :
    (∀ c, column = some c → ∃ d ∈ table.columns, d.id = c) ∧
      table.checkReferenced column = .ok () ∨
    ∃ c, column = some c ∧ (∀ d ∈ table.columns, d.id ≠ c) ∧
      table.checkReferenced column = .error (.unknownColumn table.id c) := by
  cases column with
  | none => exact Or.inl ⟨nofun, rfl⟩
  | some c =>
      unfold checkReferenced
      cases hc : (table.column? c).isSome with
      | true =>
          refine Or.inl ⟨fun d hd => ?_, by simp [hc]⟩
          exact Option.some.inj hd ▸ isSome_column?_iff.mp hc
      | false =>
          refine Or.inr ⟨c, rfl, fun d hd hid => ?_, by simp [hc]⟩
          exact absurd (isSome_column?_iff.mpr ⟨d, hd, hid⟩) (by simp [hc])

end Table

namespace Schema

variable {schema next : Schema}

/-! ## Tables and mirrors as they come out -/

/-- Ids of mirrors are apart, so a mirror that is there is the only one of its join. -/
theorem mirrors_of_mem (hv : schema.Valid) {t : Table} (ht : t ∈ schema.tables) {mirror : Join}
    (hmem : mirror ∈ t.joins) (hne : mirror.source ≠ t.id) :
    schema.mirrors mirror.id = [(t, mirror)] := by
  have hall : (t, mirror) ∈ schema.allMirrors :=
    mem_allMirrors.mpr ⟨ht, List.mem_filter.mpr ⟨hmem, by simpa using hne⟩⟩
  exact (mirrors_eq_filter schema mirror.id).trans (filter_key hv.mirrorIds hall)

theorem mirrorsOn_side {join : Join} {side junction table : TableId} {key : Option ColumnId}
    (hs : join.source = junction) (ht : join.target = some ⟨side, key⟩) (hne : junction ≠ table) :
    join.mirrorsOn table = if table = side then [join.mirror] else [] := by
  rw [Join.mirrorsOn, Join.peer?, ht, hs]
  by_cases he : table = side
  · rw [if_pos he, if_pos ⟨by rw [he]; rfl, hne.symm⟩]
  · rw [if_neg he, if_neg fun h => he (Option.some.inj h.1).symm]

/-- A junction is made behind tables that have lost the join, and get its mirrors. -/
theorem tables_withJunction (hn : (schema.tables.map (·.id)).Nodup) {join : JoinId} {a b J : Table}
    {toA toB : Join} {keyA keyB : Option ColumnId} (hsA : toA.source = J.id)
    (hsB : toB.source = J.id) (htA : toA.target = some ⟨a.id, keyA⟩)
    (htB : toB.target = some ⟨b.id, keyB⟩) (hnew : ∀ t ∈ schema.tables, J.id ≠ t.id) :
    (schema.withJunction join a b (J, toA, toB)).tables =
      schema.tables.map (fun t => t.rejoined join [toA, toB] (t.strip join).columns) ++ [J] := by
  have hids := ids_strip schema join
  have hidsA : ((schema.strip join).modifyTable a.id (·.addJoin toA.mirror)).tables.map (·.id) =
      schema.tables.map (·.id) := Eq.trans (ids_modifyTable fun _ => rfl) hids
  rw [withJunction, append, tables_modifyTable (hidsA ▸ hn), tables_modifyTable (hids ▸ hn), strip,
    mapTables, List.map_map, List.map_map]
  refine congrArg (· ++ [J]) (List.map_congr_left fun t ht => ?_)
  have hid : (t.strip join).id = t.id := rfl
  simp only [Function.comp, Table.rejoined, List.flatMap_cons, List.flatMap_nil, List.append_nil,
    mirrorsOn_side hsA htA (hnew t ht), mirrorsOn_side hsB htB (hnew t ht)]
  have hAid : ∀ u : Table, (u.addJoin toA.mirror).id = u.id := fun _ => rfl
  by_cases hA : t.id = a.id
  · by_cases hB : t.id = b.id
    · simp only [hid, if_pos hA, hAid, if_pos hB]
      simp [Table.addJoin, Table.strip]
    · simp only [hid, if_pos hA, hAid, if_neg hB]
      simp [Table.addJoin, Table.strip]
  · by_cases hB : t.id = b.id
    · simp only [hid, if_neg hA, if_pos hB]
      simp [Table.addJoin, Table.strip]
    · simp only [hid, if_neg hA, if_neg hB]
      simp [Table.strip]

/-- A side of a junction has one mirror of its join, and the column that this refers to. -/
theorem mirrored_of_tables (hv : schema.Valid) (hnv : next.Valid) {join : JoinId} {J : Table}
    {records : List Join} (htables : next.tables = schema.tables.map (fun t =>
      t.rejoined join records (t.strip join).columns) ++ [J])
    (hnew : ∀ t ∈ schema.tables, J.id ≠ t.id) {side : Table} (hside : side ∈ schema.tables)
    {record : Join} (hrecord : record ∈ records) {fk key : Column} (hfk : fk ∈ J.columns)
    (hcarries : fk.foreignKey = some record) (hs : record.source = J.id)
    (ht : record.target = some ⟨side.id, some key.id⟩) (hkey : key ∈ side.columns)
    (hdataType : fk.dataType = key.dataType) :
    ∃ t ∈ next.tables, t.id = side.id ∧ next.mirrors record.id = [(t, record.mirror)] ∧
      ∃ c ∈ t.columns, c.id = key.id ∧ c.dataType = fk.dataType := by
  let out := side.rejoined join records (side.strip join).columns
  have hout : out ∈ next.tables :=
    htables ▸ List.mem_append_left _ (List.mem_map.mpr ⟨side, hside, rfl⟩)
  have hmirror : record.mirror ∈ out.joins := by
    refine List.mem_append_right _ (List.mem_flatMap.mpr ⟨record, hrecord, ?_⟩)
    rw [mirrorsOn_side hs ht (hnew side hside), if_pos rfl]
    exact List.mem_singleton.mpr rfl
  refine ⟨out, hout, rfl, mirrors_of_mem hnv hout hmirror (hs ▸ hnew side hside), ?_⟩
  -- the schema that comes out is valid, so the column has been left
  have hJ : J ∈ next.tables := htables ▸ List.mem_append_right _ (List.mem_singleton.mpr rfl)
  obtain ⟨peer, hpeer, hcolumn⟩ :=
    (hnv.owners _ (mem_owningJoins_of_column hJ hfk hcarries)).target _ ht
  obtain rfl : out = peer := Option.some.inj ((table?_of_mem hnv.ids hout).symm.trans hpeer)
  obtain ⟨c, hc, hid⟩ := Table.isSome_column?_iff.mp (hcolumn key.id rfl)
  obtain ⟨old, hold, rfl⟩ := List.mem_map.mp hc
  have hsame : old = key := eq_of_key_eq (hv.tables side hside).columnIds
    (List.mem_filter.mp hold).1 hkey ((old.id_without join).symm.trans hid)
  exact ⟨old.without join, hc, hid, (old.dataType_without join).trans (hsame ▸ hdataType.symm)⟩

/-! ## Making a junction -/

section

variable {ids : IdSupply} {join : JoinId} {config : JoinConfig} {A B : Table}

/-- The columns of a junction: its key, and a foreign key for each side. -/
theorem columns_junctionBetween (ids : IdSupply) (config : JoinConfig) (A B : Table)
    (keyA keyB : Column) : let (J, toA, toB) := junctionBetween ids config A B keyA keyB
    ∃ pk fkA fkB, J.columns = [pk, fkA, fkB] ∧
      (pk.primaryKey = true ∧ J.primaryKey = some pk.id ∧ pk.foreignKey = none) ∧
      (fkA.foreignKey = some toA ∧ fkA.primaryKey = false ∧ fkA.dataType = keyA.dataType) ∧
      (fkB.foreignKey = some toB ∧ fkB.primaryKey = false ∧ fkB.dataType = keyB.dataType) :=
  ⟨_, _, _, rfl, ⟨rfl, rfl, rfl⟩, ⟨rfl, rfl, rfl⟩, ⟨rfl, rfl, rfl⟩⟩

/-- **A junction that is made replaces the join**, as `Replaces` says. -/
theorem replaces_of_withJunction (hv : schema.Valid) {keyA keyB : Column}
    (hA : A ∈ schema.tables) (hB : B ∈ schema.tables)
    (hkeyA : A.junctionKey? config.joinColumn = some keyA)
    (hkeyB : B.junctionKey? config.inverseColumn = some keyB)
    (hname : schema.tableNamed? (junctionName config A B) = none) (hnv : next.Valid)
    (hnext : next = schema.withJunction join A B (junctionBetween ids config A B keyA keyB)) :
    let (J, toA, toB) := junctionBetween ids config A B keyA keyB
    ∃ pk fkA fkB, schema.Replaces next join config A B J pk fkA fkB keyA keyB toA toB := by
  obtain ⟨pk, fkA, fkB, hcolumns, hpk, ⟨hcarriesA, hplainA, htypeA⟩, hcarriesB, hplainB, htypeB⟩ :=
    columns_junctionBetween ids config A B keyA keyB
  have hnames := (links_junctionBetween ids config A B keyA keyB).columnNames
  have hnew : ∀ t ∈ schema.tables, (junctionBetween ids config A B keyA keyB).1.id ≠ t.id :=
    junction_new hnv hnext
  have htables : next.tables = _ := hnext ▸ tables_withJunction hv.ids rfl rfl rfl rfl hnew
  have hfkA : fkA ∈ (junctionBetween ids config A B keyA keyB).1.columns :=
    hcolumns.symm ▸ List.mem_cons_of_mem _ List.mem_cons_self
  have hfkB : fkB ∈ (junctionBetween ids config A B keyA keyB).1.columns :=
    hcolumns.symm ▸ List.mem_cons_of_mem _ (List.mem_cons_of_mem _ List.mem_cons_self)
  have hreferencedA := Table.referenced_of_junctionKey? hkeyA
  have hreferencedB := Table.referenced_of_junctionKey? hkeyB
  refine ⟨pk, fkA, fkB, htables, ?_, ⟨rfl, ?_⟩, hcolumns, hnames, hpk, hreferencedA, hreferencedB,
    ?_, ?_, JoinId.nth_sides_ne _ _ _⟩
  · intro hmem
    obtain ⟨t, ht, hid⟩ := List.mem_map.mp hmem
    exact hnew t ht hid.symm
  · intro hmem
    obtain ⟨t, ht, htaken⟩ := List.mem_map.mp hmem
    have hfree : t.name ≠ junctionName config A B := by
      simpa using List.find?_eq_none.mp hname t ht
    exact hfree htaken
  · exact ⟨hcarriesA, hplainA, rfl, ⟨rfl, rfl⟩, ⟨rfl, rfl⟩, htypeA,
      mirrored_of_tables hv hnv htables hnew hA List.mem_cons_self hfkA hcarriesA rfl rfl
        hreferencedA.column htypeA⟩
  · exact ⟨hcarriesB, hplainB, rfl, ⟨rfl, rfl⟩, ⟨rfl, rfl⟩, htypeB,
      mirrored_of_tables hv hnv htables hnew hB (List.mem_cons_of_mem _ List.mem_cons_self) hfkB
        hcarriesB rfl rfl hreferencedB.column htypeB⟩

/-- The join that is replaced is gone, where the joins of the junction have other ids. -/
theorem Replaces.gone {J : Table} {pk fkA fkB keyA keyB : Column} {toA toB : Join}
    (h : schema.Replaces next join config A B J pk fkA fkB keyA keyB toA toB) (hjoins : J.joins = [])
    (hA : toA.id ≠ join) (hB : toB.id ≠ join) :
    ∀ t ∈ next.tables, (∀ c ∈ t.columns, c.carries join = false) ∧ ∀ r ∈ t.joins, r.id ≠ join := by
  rw [h.frame, List.forall_mem_append, List.forall_mem_singleton, List.forall_mem_map]
  refine ⟨fun t _ => ⟨?_, ?_⟩, ?_, ?_⟩
  · intro c hc
    obtain ⟨old, -, rfl⟩ := List.mem_map.mp hc
    exact old.carries_without join
  · intro r hr
    rcases List.mem_append.mp hr with hold | hnew
    · simpa using (List.mem_filter.mp hold).2
    · obtain ⟨record, hrecord, hr⟩ := List.mem_flatMap.mp hnew
      rw [(Join.mem_mirrorsOn.mp hr).2, Join.mirror_id]
      simp only [List.mem_cons, List.not_mem_nil, or_false] at hrecord
      rcases hrecord with rfl | rfl
      · exact hA
      · exact hB
  · intro c hc
    rw [h.columns] at hc
    simp only [List.mem_cons, List.not_mem_nil, or_false] at hc
    rcases hc with rfl | rfl | rfl
    · simp [Column.carries, h.key.2.2]
    · simpa [Column.carries, h.sideA.carries] using hA
    · simpa [Column.carries, h.sideB.carries] using hB
  · rw [hjoins]
    exact fun r hr => absurd hr List.not_mem_nil

/-! ## When none can be made -/

/-- A junction cannot be made between the tables. -/
def NoJunction (schema : Schema) (config : JoinConfig) (A B : Table) : Prop :=
  A.OffersNone config.joinColumn ∨ B.OffersNone config.inverseColumn ∨
    junctionName config A B ∈ schema.tables.map (·.name)

theorem tableNamed?_isSome_iff {name : String} :
    (schema.tableNamed? name).isSome = true ↔ name ∈ schema.tables.map (·.name) := by
  rw [tableNamed?, List.find?_isSome, List.mem_map]
  simp

/-- What is built is handed out, or refused because it is not valid. -/
theorem decided_settle {α : Type} (schema : Schema) (f : Schema → α) :
    Decided (schema.settle >>= fun next => pure (f next)) := by
  unfold settle
  cases schema.validate with
  | ok u => exact Or.inl ⟨f schema, rfl⟩
  | error v => exact Or.inr ⟨v, rfl⟩

theorem ne_junction_of_decided {α : Type} {r : Except EditError α} (hr : Decided r)
    (fault : JunctionFault) : r ≠ .error (.junction fault) :=
  fun he => hr.ne_error (fun v hv => by cases hv) he.symm

theorem synthesizeJunction_fault_iff (hA : schema.table? A.id = some A) :
    (∃ fault, schema.synthesizeJunction ids join A.id config = .error (.junction fault)) ↔
      ∃ B, schema.table? config.target.table = some B ∧ schema.NoJunction config A B := by
  cases hB : schema.table? config.target.table with
  | none => simp [synthesizeJunction, requireTable, hA, hB, bind, Except.bind]
  | some B =>
      simp only [Option.some.injEq, exists_eq_left', NoJunction, ← Table.junctionKey?_eq_none_iff,
        ← tableNamed?_isSome_iff]
      cases hkeyA : A.junctionKey? config.joinColumn with
      | none =>
          refine iff_of_true ⟨.noKey A.name, ?_⟩ (Or.inl rfl)
          simp only [synthesizeJunction, requireTable, hA, hB, hkeyA, bind, Except.bind]
          rfl
      | some keyA =>
          cases hkeyB : B.junctionKey? config.inverseColumn with
          | none =>
              refine iff_of_true ⟨.noKey B.name, ?_⟩ (Or.inr (Or.inl rfl))
              simp only [synthesizeJunction, requireTable, hA, hB, hkeyA, hkeyB, bind, Except.bind]
              rfl
          | some keyB =>
              cases hname : schema.tableNamed? (junctionName config A B) with
              | some taken =>
                  refine iff_of_true ⟨.nameTaken (junctionName config A B), ?_⟩
                    (Or.inr (Or.inr rfl))
                  simp only [synthesizeJunction, requireTable, hA, hB, hkeyA, hkeyB, hname, bind,
                    Except.bind]
                  rfl
              | none =>
                  -- nothing is left to check but what has been built
                  let made := junctionBetween ids config A B keyA keyB
                  have hbuilt : schema.synthesizeJunction ids join A.id config =
                      ((schema.withJunction join A B made).settle >>= fun next =>
                        pure (next, ids.tableId 0)) :=
                    (synthesizeJunction_iff (decided_settle _ _)).mpr
                      ⟨A, B, keyA, keyB, hA, hB, hkeyA, hkeyB, hname, rfl⟩
                  refine iff_of_false ?_ (by simp)
                  rintro ⟨fault, hfault⟩
                  exact ne_junction_of_decided (decided_settle _ _) fault (hbuilt.symm.trans hfault)

/-- **A join that is to be many-to-many is refused for its junction** just if that cannot be made. -/
theorem configureJoin_fault_iff (hkind : config.kind = .manyToMany)
    (hdeclaring : schema.declaring? join = some A.id) (hA : schema.table? A.id = some A) :
    (∃ fault, schema.configureJoin ids join config = .error (.junction fault)) ↔
      ∃ B, schema.table? config.target.table = some B ∧
        (∀ c, config.target.column = some c → ∃ d ∈ B.columns, d.id = c) ∧
        schema.NoJunction config A B := by
  unfold declaring? at hdeclaring
  cases hB : schema.table? config.target.table with
  | none => simp [configureJoin, requireTable, hB, bind, Except.bind]
  | some B =>
      have hbuilt : schema.configureJoin ids join config =
          (B.checkReferenced config.target.column >>= fun _ =>
            schema.synthesizeJunction ids join A.id config >>= fun built =>
              pure (built.1, .junction built.2)) := by
        simp only [configureJoin, requireTable, hB, hdeclaring, hkind, if_true, bind, Except.bind]
      simp only [Option.some.injEq, exists_eq_left', hbuilt]
      rcases B.checkReferenced_cases config.target.column with ⟨hnamed, hchecked⟩ |
        ⟨c, hc, hmissing, hchecked⟩
      · rw [and_iff_right hnamed, hchecked]
        refine Iff.trans (exists_congr fun fault => bind_pure_eq_error) ?_
        rw [synthesizeJunction_fault_iff hA, hB]
        simp
      · rw [hchecked]
        constructor
        · rintro ⟨fault, hfault⟩
          cases hfault
        · rintro ⟨hnamed, -⟩
          obtain ⟨d, hd, hid⟩ := hnamed c hc
          exact absurd hid (hmissing d hd)

/-- **A many-to-many join is replaced by a junction table and by nothing else**, and it is refused
for its junction just if there is no column to refer to or no name left. -/
theorem configureJoin_junction (hv : schema.validate = .ok ()) (ids : IdSupply)
    (hkind : config.kind = .manyToMany)
    (hA : (∃ c, schema.foreignKey? join = some (A, c)) ∨
      ∃ record, schema.pending? join = some (A, record)) :
    (∀ next id, schema.configureJoin ids join config = .ok (next, .junction id) →
      ∃ B J pk fkA fkB keyA keyB toA toB, schema.table? config.target.table = some B ∧ J.id = id ∧
        schema.Replaces next join config A B J pk fkA fkB keyA keyB toA toB ∧
        (ids.UnusedIn schema → ∀ t ∈ next.tables,
          (∀ c ∈ t.columns, c.carries join = false) ∧ ∀ r ∈ t.joins, r.id ≠ join)) ∧
    ((∃ fault, schema.configureJoin ids join config = .error (.junction fault)) ↔
      ∃ B, schema.table? config.target.table = some B ∧
        (∀ c, config.target.column = some c → ∃ d ∈ B.columns, d.id = c) ∧
        schema.NoJunction config A B) := by
  have hv := validate_iff.mp hv
  have hdeclaring : schema.declaring? join = some A.id := by
    rcases hA with ⟨c, hf⟩ | ⟨record, hp⟩
    · rw [declaring?, hf]
      rfl
    · rw [declaring?, foreignKey?_of_pending? hv hp, hp]
      rfl
  have hmem : A ∈ schema.tables := by
    rcases hA with ⟨c, hf⟩ | ⟨record, hp⟩
    · exact (foreignKey?_eq_some hf).1
    · exact mem_of_pending? hp
  have htable := table?_of_mem hv.ids hmem
  refine ⟨fun next id h => ?_, configureJoin_fault_iff hkind hdeclaring htable⟩
  obtain ⟨-, declaring, -, -, hd, hbuilt⟩ := (configureJoin_iff (Or.inl ⟨_, rfl⟩)).mp h
  obtain ⟨-, hbuilt⟩ := hbuilt.resolve_right fun hother => hother.1 hkind
  obtain rfl : A.id = declaring := Option.some.inj (hdeclaring.symm.trans hd)
  obtain ⟨⟨built, table⟩, hmade, hr⟩ := bind_eq_ok.mp hbuilt
  cases hr
  obtain ⟨a, B, keyA, keyB, ha, hB, hkeyA, hkeyB, hname, hsettled⟩ :=
    (synthesizeJunction_iff (Or.inl ⟨_, rfl⟩)).mp hmade
  obtain rfl : A = a := Option.some.inj (htable.symm.trans ha)
  obtain ⟨hnv, hnext, hid⟩ := settled_beside hsettled
  obtain ⟨pk, fkA, fkB, hreplaces⟩ := replaces_of_withJunction hv hmem (mem_of_table? hB).1 hkeyA
    hkeyB hname hnv hnext
  refine ⟨B, _, pk, fkA, fkB, keyA, keyB, _, _, hB, hid.symm, hreplaces, fun hunused => ?_⟩
  -- the ids of the new joins are made of the id of the new table
  obtain ⟨o, ho, hjoin, -⟩ := seat_of_declaring hdeclaring
  exact hreplaces.gone rfl
    (fun he => hunused.joins o ho A.id 0 (hjoin.trans he.symm))
    fun he => hunused.joins o ho B.id (if A.id = B.id then 1 else 0) (hjoin.trans he.symm)

end

/-- Users are to like many posts, so the likes become a table. -/
theorem postsOfUsers_junction : postsOfUsers.validate = .ok () ∧
    (configTo ⟨"p"⟩ .manyToMany).kind = .manyToMany ∧
    ∃ A record, postsOfUsers.pending? ⟨"u->p"⟩ = some (A, record) ∧ A.name = "User" ∧
      ∃ next id, postsOfUsers.configureJoin ⟨"j", 0⟩ ⟨"u->p"⟩ (configTo ⟨"p"⟩ .manyToMany) =
        .ok (next, .junction id) ∧
      ∃ B J pk fkA fkB keyA keyB toA toB, J.id = id ∧ postsOfUsers.Replaces next ⟨"u->p"⟩
        (configTo ⟨"p"⟩ .manyToMany) A B J pk fkA fkB keyA keyB toA toB := by
  have hvalidate : postsOfUsers.validate = .ok () := ok_of_toOption (by decide +kernel)
  have hpending : (postsOfUsers.pending? ⟨"u->p"⟩).map (·.1.name) = some "User" := by
    decide +kernel
  have hmade : (postsOfUsers.configureJoin ⟨"j", 0⟩ ⟨"u->p"⟩
      (configTo ⟨"p"⟩ .manyToMany)).toOption.map (·.2) =
        some (.junction ⟨"j000000000000"⟩) := by decide +kernel
  obtain ⟨⟨A, record⟩, hpending, hname⟩ := Option.map_eq_some_iff.mp hpending
  obtain ⟨⟨next, configured⟩, hbuilt, hconfigured⟩ := Option.map_eq_some_iff.mp hmade
  dsimp only at hconfigured
  subst hconfigured
  have hbuilt := ok_of_toOption hbuilt
  obtain ⟨B, J, pk, fkA, fkB, keyA, keyB, toA, toB, -, hid, hreplaces, -⟩ :=
    (configureJoin_junction hvalidate ⟨"j", 0⟩ rfl (Or.inr ⟨record, hpending⟩)).1 next _ hbuilt
  exact ⟨hvalidate, rfl, A, record, hpending, hname, next, _, hbuilt, B, J, pk, fkA, fkB, keyA,
    keyB, toA, toB, hid, hreplaces⟩

end Schema

end ErModel
