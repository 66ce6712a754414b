import Mathlib.Data.List.Nodup
import ErModel.Proofs.Configured
import ErModel.Proofs.MirrorRuns

/-!
# The names of columns

A text in which two properties of an entity have one name does not compile, so a table should have no
two columns of one name. An edit that makes a column takes a name that is free, and most of the others
leave the names that there are: they keep the names of columns apart. Only a list of columns that is
to replace another is taken as it comes, and so is the draft of a column.
-/

namespace ErModel

/-- The names of the columns of a table. -/
def Table.columnNames (table : Table) : List String := table.columns.map (·.name)

/-- No table has two columns of one name. -/
def Schema.ColumnsApart (schema : Schema) : Prop := ∀ t ∈ schema.tables, t.columnNames.Nodup

instance (schema : Schema) : Decidable schema.ColumnsApart :=
  inferInstanceAs (Decidable (∀ t ∈ schema.tables, t.columnNames.Nodup))

/-- The edit is to write columns of which two have the same name. -/
def Intent.DoublesName : Intent → Prop
  | .replaceColumns _ columns => ¬ (columns.map (·.name)).Nodup
  | _ => False

namespace Schema

variable {schema next : Schema}

/-! ## What an edit is made of -/

theorem ColumnsApart.append (h : schema.ColumnsApart) {table : Table}
    (hn : table.columnNames.Nodup) : (schema.append table).ColumnsApart := by
  intro t ht
  rcases List.mem_append.mp ht with ht | ht
  · exact h t ht
  · exact List.mem_singleton.mp ht ▸ hn

theorem ColumnsApart.modifyTable (h : schema.ColumnsApart) {id : TableId} {f : Table → Table}
    (hf : ∀ t, schema.table? id = some t → t.columnNames.Nodup → (f t).columnNames.Nodup) :
    (schema.modifyTable id f).ColumnsApart := by
  intro t ht
  rcases mem_of_modifyTable ht with ht | ⟨u, hu, rfl⟩
  · exact h t ht
  · exact hf u hu (h u (mem_of_table? hu).1)

theorem ColumnsApart.mapTables (h : schema.ColumnsApart) {f : Table → Table}
    (hf : ∀ t : Table, (f t).columnNames.Sublist t.columnNames) :
    (schema.mapTables f).ColumnsApart := by
  intro t ht
  obtain ⟨u, hu, rfl⟩ := List.mem_map.mp ht
  exact (h u hu).sublist (hf u)

theorem ColumnsApart.strip (h : schema.ColumnsApart) (join : JoinId) :
    (schema.strip join).ColumnsApart :=
  h.mapTables fun t => t.columns_strip_sublist join fun _ => rfl

theorem ColumnsApart.stripAll (h : schema.ColumnsApart) (joins : List JoinId) :
    (schema.stripAll joins).ColumnsApart := by
  unfold Schema.stripAll
  induction joins generalizing schema with
  | nil => exact h
  | cons join rest ih => exact ih (h.strip join)

theorem ColumnsApart.of_sameTables (h : schema.ColumnsApart) (hs : next.SameTables schema) :
    next.ColumnsApart := by
  intro t ht
  obtain ⟨u, hu, he⟩ := hs.mem ht
  rw [Table.columnNames, ← Table.columns_of_withoutJoins he]
  exact h u hu

theorem columnsApart_empty : empty.ColumnsApart := by
  intro t ht
  cases ht

/-! ## Columns that are given -/

/-- The table gets the given columns, with their names. -/
theorem columnsApart_replaceColumns_iff (h : schema.ColumnsApart) {table : TableId}
    {given : List Column} (hr : schema.replaceColumns table given = .ok next) :
    next.ColumnsApart ↔ (given.map (·.name)).Nodup := by
  obtain ⟨-, current, columns, key, hcurrent, -, hnames, rfl⟩ := replaceColumns_eq_ok hr
  -- the joins that are dropped are on none of the columns, so all of these stay
  have huncarried : ∀ c ∈ columns, ∀ join ∈ current.carriedJoins.filter
      (· ∉ columns.filterMap (·.foreignKey.map (·.id))), c.carries join = false := by
    intro c hc join hjoin
    refine Bool.eq_false_iff.mpr fun hcarries => ?_
    obtain ⟨record, hf, hid⟩ := Column.carries_iff.mp hcarries
    refine absurd ?_ (of_decide_eq_true (List.mem_filter.mp hjoin).2)
    exact List.mem_filterMap.mpr ⟨c, hc, by rw [hf, Option.map_some, hid]⟩
  generalize current.carriedJoins.filter
    (· ∉ columns.filterMap (·.foreignKey.map (·.id))) = dropped at huncarried
  let change : Table → Table := fun t => { t with columns := columns, primaryKey := key }
  have hchanged : ((change current).stripAll dropped).columnNames = given.map (·.name) := by
    rw [Table.columnNames, Table.columns_stripAll_of_uncarried huncarried]
    exact hnames
  constructor
  · intro hnext
    refine hchanged ▸ hnext _ ?_
    rw [stripAll_eq]
    exact List.mem_map.mpr ⟨change current, mem_modifyTable hcurrent, rfl⟩
  · intro hnodup
    have hmodified : (schema.modifyTable table change).ColumnsApart :=
      h.modifyTable fun t _ _ => by rwa [Table.columnNames, hnames]
    exact hmodified.stripAll dropped

/-- A draft is told from the other columns of its table by name. -/
theorem nodup_mergeDraft_iff {table : Table} (hs : table.Sound) (hn : table.columnNames.Nodup)
    {draft current : Column} (hc : table.column? draft.id = some current) :
    ((Session.mergeDraft table draft).map (·.name)).Nodup ↔
      ∀ c ∈ table.columns, c.id ≠ draft.id → c.name ≠ draft.name := by
  have hmem := List.mem_of_find?_eq_some hc
  have hid : current.id = draft.id := by simpa using List.find?_some hc
  have hnames : (Session.mergeDraft table draft).map (·.name) =
      table.columns.map fun c => if c.id = draft.id then draft.name else c.name := by
    rw [Session.mergeDraft, List.map_map]
    refine List.map_congr_left fun c _ => ?_
    rw [Function.comp_apply]
    split <;> rfl
  rw [hnames, List.nodup_map_iff_inj_on hs.columnIds.of_map]
  constructor
  · intro hinj c hmemc hne he
    have hsame := hinj c hmemc current hmem (by rw [if_neg hne, if_pos hid, he])
    exact hne (hsame ▸ hid)
  · intro hapart c hc d hd he
    by_cases hcd : c.id = draft.id
    · by_cases hdd : d.id = draft.id
      · exact eq_of_key_eq hs.columnIds hc hd (hcd.trans hdd.symm)
      · rw [if_pos hcd, if_neg hdd] at he
        exact absurd he.symm (hapart d hd hdd)
    · by_cases hdd : d.id = draft.id
      · rw [if_neg hcd, if_pos hdd] at he
        exact absurd he (hapart c hc hcd)
      · rw [if_neg hcd, if_neg hdd] at he
        exact eq_of_key_eq hn hc hd he

/-! ## Joins -/

theorem ColumnsApart.placeForeignKey (h : schema.ColumnsApart) {ids : IdSupply} {record : Join}
    {peer : Table} {key : Option ColumnId} (ht : record.target = some ⟨peer.id, key⟩)
    (existing : Option ColumnId) (dataType : DataType) :
    (schema.placeForeignKey ids record existing peer dataType).1.ColumnsApart := by
  rw [placeForeignKey_eq ht]
  refine ColumnsApart.of_sameTables ?_ (sameTables_addMirror _ record)
  cases existing with
  | some column =>
      have hcleared : (schema.clear record.id).ColumnsApart :=
        h.mapTables fun t => List.Sublist.refl _
      refine hcleared.modifyTable fun t _ hn => ?_
      have hnames : (t.setForeignKey column dataType record).columnNames = t.columnNames := by
        rw [Table.columnNames, Table.setForeignKey, map_modifyFirst]
        · rfl
        · exact fun _ => rfl
      exact hnames ▸ hn
  | none => exact (h.strip record.id).modifyTable fun t _ hn => Table.names_addColumn hn rfl

theorem ColumnsApart.synthesizeJunction (h : schema.ColumnsApart) {ids : IdSupply} {join : JoinId}
    {declaring table : TableId} {config : JoinConfig}
    (hj : schema.synthesizeJunction ids join declaring config = .ok (next, table)) :
    next.ColumnsApart := by
  obtain ⟨-, a, b, junction, toA, toB, -, -, -, -, hlinks, rfl⟩ := synthesizeJunction_eq_ok hj
  refine ColumnsApart.append ?_ hlinks.columnNames
  exact (h.strip join).of_sameTables ((sameTables_addJoin ..).trans (sameTables_addJoin ..))

theorem ColumnsApart.configureJoin (h : schema.ColumnsApart) {ids : IdSupply} {join : JoinId}
    {config : JoinConfig} {configured : Configured}
    (hc : schema.configureJoin ids join config = .ok (next, configured)) : next.ColumnsApart := by
  obtain ⟨declaring, -, ⟨-, table, hj⟩ | ⟨-, -, hplaced⟩⟩ := configureJoin_eq_ok hc
  · exact h.synthesizeJunction hj
  · obtain ⟨record, peer, key, dataType, -, ht, -, -, -, rfl⟩ := hplaced
    exact h.placeForeignKey ht _ dataType

/-! ## All edits -/

/-- **An edit keeps the names of columns apart, if it does not come with a name twice.** -/
theorem columnsApart_apply_iff (h : schema.ColumnsApart) {ids : IdSupply} {intent : Intent}
    {effect : Effect} (ha : schema.apply ids intent = .ok (next, effect)) :
    next.ColumnsApart ↔ ¬ intent.DoublesName := by
  have hkept : ∀ {P : Prop}, P → (P ↔ ¬ False) := fun hp => iff_of_true hp id
  cases intent with
  | createTable name keyType =>
      obtain ⟨⟨built, id⟩, hb, hr⟩ := bind_eq_ok.mp ha
      cases hr
      obtain ⟨-, rfl⟩ := createTable_eq_ok hb
      exact hkept (h.append (by simp [Table.columnNames, Table.seeded]))
  | deleteTable table =>
      obtain ⟨built, hb, hr⟩ := bind_eq_ok.mp ha
      cases hr
      obtain ⟨-, rfl⟩ := deleteTable_eq_ok hb
      exact hkept fun t ht => h.stripAll _ t (List.mem_filter.mp ht).1
  | duplicateTable table =>
      obtain ⟨⟨built, id⟩, hb, hr⟩ := bind_eq_ok.mp ha
      cases hr
      obtain ⟨-, pattern, name, hpattern, rfl⟩ := duplicateTable_eq_ok hb
      refine hkept (h.append ?_)
      have hnames : (pattern.copy name ids).columnNames = pattern.columnNames := by
        refine List.ext_getElem? fun i => ?_
        rw [Table.columnNames, Table.copy, List.getElem?_map, List.getElem?_mapIdx, Option.map_map,
          Table.columnNames, List.getElem?_map]
        rfl
      exact hnames ▸ h pattern (mem_of_table? hpattern).1
  | replaceColumns table columns =>
      obtain ⟨built, hb, hr⟩ := bind_eq_ok.mp ha
      cases hr
      exact (columnsApart_replaceColumns_iff h hb).trans Decidable.not_not.symm
  | replaceTableFields table patch =>
      obtain ⟨built, hb, hr⟩ := bind_eq_ok.mp ha
      cases hr
      obtain ⟨-, rfl⟩ := replaceTableFields_eq_ok hb
      exact hkept (h.modifyTable fun _ _ hn => hn)
  | addColumn table name =>
      obtain ⟨⟨built, id⟩, hb, hr⟩ := bind_eq_ok.mp ha
      cases hr
      obtain ⟨-, current, column, hcurrent, -, hname, rfl⟩ := addColumn_eq_ok hb
      refine hkept (h.modifyTable fun t ht hn => ?_)
      rw [hcurrent, Option.some.injEq] at ht
      exact Table.names_addColumn hn (ht ▸ hname)
  | deleteColumn table column =>
      obtain ⟨built, hb, hr⟩ := bind_eq_ok.mp ha
      cases hr
      obtain ⟨-, owner, target, -, -, rfl⟩ := deleteColumn_eq_ok hb
      exact hkept ((h.stripAll _).modifyTable fun _ _ hn => hn.sublist (List.filter_sublist.map _))
  | connect source target column onDelete onUpdate =>
      obtain ⟨⟨built, id⟩, hb, hr⟩ := bind_eq_ok.mp ha
      cases hr
      rcases connect_eq_ok hb with ⟨-, rfl⟩ | ⟨-, join, referenced, -, -, -, -, -, rfl⟩
      · exact hkept h
      · exact hkept (h.of_sameTables (sameTables_declare ..))
  | configureJoin join config =>
      obtain ⟨⟨built, configured⟩, hb, hr⟩ := bind_eq_ok.mp ha
      cases hr
      exact hkept (h.configureJoin hb)
  | deleteJoin join =>
      obtain ⟨built, hb, hr⟩ := bind_eq_ok.mp ha
      cases hr
      obtain ⟨-, rfl⟩ := deleteJoin_eq_ok hb
      exact hkept (h.strip join)

/-- A source text brings columns with names of their own, whatever there was before. -/
theorem columnsApart_reconcile {schema parsed : Schema} {source : String} {ids rest : IdSupply}
    {canvas placed : Canvas} {step : Binary64}
    (hc : Source.compile source ids = (.ok parsed, rest))
    (hr : schema.reconcile canvas parsed step = .ok (next, placed)) : next.ColumnsApart := by
  obtain ⟨n, hcompiled⟩ := Source.compile_compiled hc
  have hparsed : parsed.ColumnsApart := hcompiled.columnNames
  have happly : ((newIds schema parsed).apply parsed).ColumnsApart := by
    refine hparsed.mapTables fun t => ?_
    rw [Table.columnNames, Relabelling.onTable, List.map_map]
    exact List.Sublist.refl _
  rw [reconcile_eq hcompiled.valid] at hr
  obtain ⟨built, hbuilt, hr⟩ := bind_eq_ok.mp hr
  cases hr
  obtain ⟨-, rfl⟩ := settled.mp hbuilt
  exact happly.of_sameTables (sameTables_carryAll ..)

end Schema

end ErModel
