import ErModel.Proofs.Compiling
import ErModel.Proofs.Relabel
import Mathlib.Data.List.Count
import Mathlib.Data.Prod.Basic

/-!
# One text, compiled twice

Compiling asks of ids only whether two of them are the same, so it does not matter which supply they
come from: a text that compiles with one supply compiles with any other, and the schema is the same
with each id in the place of the id that the first supply had there. The new ids of joins follow from
those of the tables, since they are made from them.
-/

namespace ErModel

/-! ## From one supply to another -/

/-- A function that is given on some arguments and made up on the others keeps arguments apart, if
what is made up is never one of the given values. -/
theorem injective_extend {α β γ : Type} {f : α → β} {g : α → γ} {h : β → γ}
    (hf : Function.Injective f) (hg : Function.Injective g) (hh : Function.Injective h)
    (hne : ∀ a b, g a ≠ h b) : Function.Injective (Function.extend f g h) := by
  intro x y he
  by_cases hx : ∃ a, f a = x
  · obtain ⟨a, rfl⟩ := hx
    rw [hf.extend_apply] at he
    by_cases hy : ∃ b, f b = y
    · obtain ⟨b, rfl⟩ := hy
      rw [hf.extend_apply] at he
      rw [hg he]
    · rw [Function.extend_apply' _ _ _ hy] at he
      exact absurd he (hne a y)
  · rw [Function.extend_apply' _ _ _ hx] at he
    by_cases hy : ∃ b, f b = y
    · obtain ⟨b, rfl⟩ := hy
      rw [hf.extend_apply] at he
      exact absurd he.symm (hne b x)
    · rw [Function.extend_apply' _ _ _ hy] at he
      exact hh he

theorem append_ne_concat {c : Char} {xs ys zs : List Char} (hne : ys ≠ []) (hc : c ∉ ys) :
    xs ++ ys ≠ zs ++ [c] := by
  obtain ⟨before, last, rfl⟩ := (List.eq_nil_or_concat ys).resolve_left hne
  rw [List.concat_eq_append] at hc ⊢
  intro he
  rw [← List.append_assoc] at he
  obtain rfl := List.singleton_inj.mp (List.append_inj' he rfl).2
  exact hc (List.mem_append_right _ List.mem_cons_self)

theorem IdSupply.skip_skip (ids : IdSupply) (m n : Nat) :
    (ids.skip m).skip n = ids.skip (m + n) := by
  rw [skip, skip, skip, Nat.add_assoc]

theorem IdSupply.tableId_skip (ids : IdSupply) (n k : Nat) :
    (ids.skip n).tableId k = ids.tableId (n + k) := congrArg TableId.mk (ids.text_skip n k)

theorem IdSupply.columnId_skip (ids : IdSupply) (n k : Nat) :
    (ids.skip n).columnId k = ids.columnId (n + k) := congrArg ColumnId.mk (ids.text_skip n k)

theorem IdCodes.code_ne_nil (codes : IdCodes) (n : Nat) : (codes.code n).toList ≠ [] :=
  fun he => codes.ne_empty n (String.toList_injective he)

/-- No id of a supply ends in a dash. -/
theorem IdSupply.text_ne_append (ids : IdSupply) (k : Nat) (text : String) :
    ids.text k ≠ text ++ "-" := by
  intro he
  have he := congrArg String.toList he
  rw [IdSupply.text, String.toList_append, String.toList_append] at he
  exact append_ne_concat (ids.codes.code_ne_nil _) (fun hc => (ids.codes.ne_of_mem_code hc).1 rfl) he

theorem JoinId.dash_not_mem_suffix (n : Nat) : '-' ∉ (suffix n).toList := by
  cases n with
  | zero => simp [suffix]
  | succ n =>
      rw [suffix, String.toList_append]
      intro hc
      rcases List.mem_append.mp hc with hc | hc
      · simp at hc
      · have hc : '-' ∈ Nat.toDigits 10 (n + 1) := by rwa [← Nat.toList_repr]
        exact absurd (Nat.isDigit_of_mem_toDigits (by decide) (by decide) hc) (by decide)

/-- No id of a join to a table of a supply ends in a dash. -/
theorem JoinId.nth_ne_append (source : TableId) (ids : IdSupply) (b n : Nat) (text : String) :
    (nth source (ids.tableId b) n).text ≠ text ++ "-" := by
  intro he
  have he := congrArg String.toList he
  rw [nth_eq, IdSupply.tableId, IdSupply.text] at he
  simp only [String.toList_append] at he
  rw [← List.append_assoc _ (ids.stem.toList), List.append_assoc _ _ (suffix n).toList] at he
  refine append_ne_concat (List.append_ne_nil_of_left_ne_nil (ids.codes.code_ne_nil _) _)
    (fun hc => ?_) he
  rcases List.mem_append.mp hc with hc | hc
  · exact (ids.codes.ne_of_mem_code hc).1 rfl
  · exact dash_not_mem_suffix n hc

/-- The id of a join between the tables in two places, with its number. -/
def IdSupply.joinId (ids : IdSupply) (p : Nat × Nat × Nat) : JoinId :=
  .nth (ids.tableId p.1) (ids.tableId p.2.1) p.2.2

theorem IdSupply.joinId_injective (ids : IdSupply) : Function.Injective ids.joinId := by
  intro p q he
  obtain ⟨ha, hb, hn⟩ := JoinId.nth_supply_inj he
  exact Prod.ext ha (Prod.ext hb hn)

namespace Relabelling

/-- The id in place `k` of one supply becomes that in `place k` of another, and different ids stay
different. -/
structure Moves (names : Relabelling) (place : Nat → Nat) (ids ids' : IdSupply) : Prop where
  tableId : ∀ k, names.table (ids.tableId k) = ids'.tableId (place k)
  columnId : ∀ k, names.column (ids.columnId k) = ids'.columnId (place k)
  joinId : ∀ a b n, names.join (.nth (ids.tableId a) (ids.tableId b) n) =
    .nth (ids'.tableId (place a)) (ids'.tableId (place b)) n
  tables : Function.Injective names.table
  columns : Function.Injective names.column
  joins : Function.Injective names.join

/-- Ids of one supply become those of another, place by place, and different ids stay different. -/
structure Renumbers (names : Relabelling) (ids ids' : IdSupply) : Prop where
  tableId : ∀ k, names.table (ids.tableId k) = ids'.tableId k
  columnId : ∀ k, names.column (ids.columnId k) = ids'.columnId k
  joinId : ∀ a b n, names.join (.nth (ids.tableId a) (ids.tableId b) n) =
    .nth (ids'.tableId a) (ids'.tableId b) n
  tables : Function.Injective names.table
  columns : Function.Injective names.column
  joins : Function.Injective names.join

theorem Renumbers.moves {names : Relabelling} {ids ids' : IdSupply} (h : names.Renumbers ids ids') :
    names.Moves id ids ids' := { h with }

theorem Moves.renumbers {names : Relabelling} {ids ids' : IdSupply} (h : names.Moves id ids ids') :
    names.Renumbers ids ids' := { h with }

/-- There are new ids for all places that stay apart. -/
theorem exists_moves {place : Nat → Nat} (hplace : Function.Injective place) (ids ids' : IdSupply) :
    ∃ names : Relabelling, names.Moves place ids ids' := by
  have happend : Function.Injective fun text : String => text ++ "-" :=
    fun _ _ he => (String.append_left_inj "-").mp he
  let text := Function.extend ids.text (fun k => ids'.text (place k)) (· ++ "-")
  have htext : Function.Injective text :=
    injective_extend ids.text_injective (ids'.text_injective.comp hplace) happend
      fun k => ids'.text_ne_append (place k)
  let moved := fun p => ids'.joinId (Prod.map place (Prod.map place id) p)
  have hmoved : Function.Injective moved :=
    ids'.joinId_injective.comp (hplace.prodMap (hplace.prodMap Function.injective_id))
  refine ⟨⟨fun t => ⟨text t.text⟩, fun c => ⟨text c.text⟩,
    Function.extend ids.joinId moved fun j => ⟨j.text ++ "-"⟩⟩, ?_, ?_, ?_, ?_, ?_, ?_⟩
  · exact fun k => congrArg TableId.mk (ids.text_injective.extend_apply _ _ k)
  · exact fun k => congrArg ColumnId.mk (ids.text_injective.extend_apply _ _ k)
  · exact fun a b n => ids.joinId_injective.extend_apply moved (fun j => ⟨j.text ++ "-"⟩) (a, b, n)
  · exact fun t u he => congrArg TableId.mk (htext (TableId.mk.inj he))
  · exact fun c d he => congrArg ColumnId.mk (htext (ColumnId.mk.inj he))
  · refine injective_extend ids.joinId_injective hmoved ?_ fun p j he => ?_
    · exact fun i j he => congrArg JoinId.mk (happend (JoinId.mk.inj he))
    · exact JoinId.nth_ne_append _ ids' _ _ _ (congrArg JoinId.text he)

/-- Different ids stay different, and the ids of joins follow those of the tables: a join is the `n`-th
from its source to its target, and it still is under the new ids. -/
structure Relabels (names : Relabelling) (schema : Schema) : Prop where
  tables : Function.Injective names.table
  columns : Function.Injective names.column
  joins : Function.Injective names.join
  follows : ∀ o ∈ schema.owningJoins, ∃ n, o.join.IsNth n ∧ (names.record o.join).IsNth n

/-- Where all ids come from one supply, those of joins follow. -/
theorem Moves.relabels {names : Relabelling} {place : Nat → Nat} {ids ids' : IdSupply}
    (h : names.Moves place ids ids') {schema : Schema} {m : Nat} (hs : schema.Compiled ids m) :
    names.Relabels schema where
  tables := h.tables
  columns := h.columns
  joins := h.joins
  follows := by
    intro o ho
    have hsound := hs.valid.owners o ho
    obtain ⟨n, target, htarget, hid⟩ :=
      hs.numbered _ (Schema.owners_eq schema ▸ List.mem_map.mpr ⟨o, ho, rfl⟩)
    obtain ⟨peer, hpeer, -⟩ := hsound.target target htarget
    obtain ⟨hmem, hpeerId⟩ := Schema.mem_of_table? hpeer
    obtain ⟨a, ha⟩ := hs.drawn.tableId (Schema.mem_owningJoins ho).1
    obtain ⟨b, hb⟩ := hs.drawn.tableId hmem
    refine ⟨n, ⟨target, htarget, hid⟩, _, congrArg (Option.map _) htarget, ?_⟩
    show names.join o.join.id = .nth (names.table o.join.source) (names.table target.table) n
    rw [hid, hsound.source, ← hpeerId, ha, hb, h.joinId, h.tableId, h.tableId]

theorem exists_renumbers (ids ids' : IdSupply) :
    ∃ names : Relabelling, names.Renumbers ids ids' := by
  obtain ⟨names, h⟩ := exists_moves Function.injective_id ids ids'
  exact ⟨names, h.renumbers⟩

theorem Renumbers.skip {names : Relabelling} {ids ids' : IdSupply} (h : names.Renumbers ids ids')
    (n : Nat) : names.Renumbers (ids.skip n) (ids'.skip n) := by
  refine { h with tableId := fun k => ?_, columnId := fun k => ?_, joinId := fun a b m => ?_ }
  · rw [IdSupply.tableId_skip, IdSupply.tableId_skip, h.tableId]
  · rw [IdSupply.columnId_skip, IdSupply.columnId_skip, h.columnId]
  · rw [IdSupply.tableId_skip, IdSupply.tableId_skip, IdSupply.tableId_skip, IdSupply.tableId_skip,
      h.joinId]

end Relabelling

/-! ## Tables of a document -/

namespace Source

variable {names : Relabelling} {ids ids' : IdSupply}

theorem foldl_apply_relabel (names : Relabelling) (modifiers : List Modifier) (column : Column) :
    names.onColumn (modifiers.foldl Modifier.apply column) =
      modifiers.foldl Modifier.apply (names.onColumn column) := by
  induction modifiers generalizing column with
  | nil => rfl
  | cons modifier rest ih =>
      have hone : names.onColumn (modifier.apply column) = modifier.apply (names.onColumn column) := by
        cases modifier <;> rfl
      rw [List.foldl_cons, List.foldl_cons, ih, hone]

theorem Property.column_relabel (names : Relabelling) {property : Property} {id : ColumnId}
    {table : TableId} {column : Column} (h : property.column id table = .ok column) :
    property.column (names.column id) (names.table table) = .ok (names.onColumn column) := by
  obtain ⟨dataType, hdataType, h⟩ := bind_eq_ok.mp h
  cases h
  refine bind_eq_ok.mpr ⟨dataType, hdataType, ?_⟩
  have hsaid := foldl_apply_relabel names property.modifiers (.plain id table property.name)
  have hplain : names.onColumn (.plain id table property.name) =
    .plain (names.column id) (names.table table) property.name := rfl
  rw [hplain] at hsaid
  rw [← hsaid]
  rfl

/-- Columns are the same under new ids for their places, which may be others. -/
theorem columnsOf_renumbered {table : TableId} {place place' : Nat} {properties : List Property}
    {columns : List Column}
    (h : ∀ i < properties.length,
      names.column (ids.columnId (place + i)) = ids'.columnId (place' + i))
    (hc : columnsOf table ids place properties = .ok columns) :
    columnsOf (names.table table) ids' place' properties = .ok (columns.map names.onColumn) := by
  induction properties generalizing place place' columns with
  | nil =>
      cases hc
      rfl
  | cons property rest ih =>
      rw [List.length_cons] at h
      obtain ⟨column, hcolumn, hc⟩ := bind_eq_ok.mp hc
      obtain ⟨more, hmore, hc⟩ := bind_eq_ok.mp hc
      cases hc
      have hfirst : names.column (ids.columnId place) = ids'.columnId place' := h 0 (by omega)
      have hrest : ∀ i < rest.length,
          names.column (ids.columnId (place + 1 + i)) = ids'.columnId (place' + 1 + i) := by
        intro i hi
        rw [Nat.add_right_comm place, Nat.add_right_comm place']
        exact h (i + 1) (by omega)
      refine bind_eq_ok.mpr ⟨names.onColumn column, ?_, bind_eq_ok.mpr ⟨_, ih hrest hmore, rfl⟩⟩
      rw [← hfirst]
      exact Property.column_relabel names hcolumn

theorem keyOf_relabel (names : Relabelling) {columns : List Column} {key : Option ColumnId}
    (h : keyOf columns = .ok key) :
    keyOf (columns.map names.onColumn) = .ok (key.map names.column) := by
  have hfilter : (columns.map names.onColumn).filter (·.primaryKey) =
      (columns.filter (·.primaryKey)).map names.onColumn := List.filter_map
  unfold keyOf at h ⊢
  rw [hfilter]
  split at h
  · rename_i hnone
    rw [hnone]
    split at h
    · rename_i hempty
      cases h
      rw [List.isEmpty_iff.mp hempty]
      rfl
    · cases h
  · rename_i found hone
    cases h
    rw [hone]
    rfl
  · cases h

/-- The table of an entity is the same under new ids for its own places. -/
theorem Entity.table_renumbered {entity : Entity} {table : Table}
    (htable : names.table (ids.tableId 0) = ids'.tableId 0)
    (hcolumn : ∀ k < entity.idCount, names.column (ids.columnId k) = ids'.columnId k)
    (ht : entity.table ids = .ok table) : entity.table ids' = .ok (names.onTable table) := by
  obtain ⟨columns, hcolumns, ht⟩ := bind_eq_ok.mp ht
  obtain ⟨key, hkey, ht⟩ := bind_eq_ok.mp ht
  cases ht
  have hcolumns : columnsOf (names.table (ids.tableId 0)) ids' 1 entity.properties = .ok _ :=
    columnsOf_renumbered (fun i hi => hcolumn (1 + i) (by rw [Entity.idCount]; omega)) hcolumns
  rw [htable] at hcolumns
  refine bind_eq_ok.mpr ⟨_, hcolumns, bind_eq_ok.mpr ⟨_, keyOf_relabel names hkey, ?_⟩⟩
  rw [Relabelling.onTable, htable]
  rfl

theorem tablesOf_renumbered (h : names.Renumbers ids ids') {entities : List Entity}
    {tables : List Table} (ht : tablesOf ids entities = .ok tables) :
    tablesOf ids' entities = .ok (tables.map names.onTable) := by
  induction entities generalizing ids ids' tables with
  | nil =>
      cases ht
      rfl
  | cons entity rest ih =>
      obtain ⟨table, htable, ht⟩ := bind_eq_ok.mp ht
      obtain ⟨more, hmore, ht⟩ := bind_eq_ok.mp ht
      cases ht
      refine bind_eq_ok.mpr ⟨names.onTable table, ?_,
        bind_eq_ok.mpr ⟨_, ih (h.skip entity.idCount) hmore, rfl⟩⟩
      rw [Entity.table_renumbered (h.tableId 0) (fun k _ => h.columnId k) (inEntity_eq_ok htable),
        inEntity_ok]

end Source

/-! ## What a schema has under the new ids -/

/-- An element is found under its new key where it was found under the old one. -/
theorem find?_map_key {α β : Type} [DecidableEq β] (key : α → β) {g : α → α} {f : β → β}
    (hf : Function.Injective f) (hg : ∀ x, key (g x) = f (key x)) (k : β) (xs : List α) :
    (xs.map g).find? (key · = f k) = (xs.find? (key · = k)).map g := by
  rw [List.find?_map]
  refine congrArg (Option.map g) (congrArg (List.find? · xs) (funext fun x => ?_))
  rw [Function.comp_apply, hg]
  exact decide_eq_decide.mpr hf.eq_iff

section

variable {α β : Type} {p : α → Bool} {f : α → α} {q : β → Bool} {f' : β → β} {g : α → β}

theorem map_modifyFirst_comm (hp : ∀ x, q (g x) = p x) (hf : ∀ x, g (f x) = f' (g x))
    (xs : List α) : (modifyFirst p f xs).map g = modifyFirst q f' (xs.map g) := by
  induction xs with
  | nil => rfl
  | cons x rest ih =>
      rw [List.map_cons, modifyFirst, modifyFirst, hp]
      split
      · rw [List.map_cons, hf]
      · rw [List.map_cons, ih]

end

namespace Relabelling

variable {names : Relabelling}

/-- What a join refers to, under the new ids. -/
def onTarget (names : Relabelling) (target : JoinTarget) : JoinTarget :=
  ⟨names.table target.table, target.column.map names.column⟩

/-- The choices for a join, under the new ids. -/
def onConfig (names : Relabelling) (config : JoinConfig) : JoinConfig :=
  { config with target := names.onTarget config.target }

/-- A junction table that waits, under the new ids. -/
def onDeferred (names : Relabelling) (deferred : Source.Deferred) : Source.Deferred :=
  { deferred with join := names.join deferred.join, config := names.onConfig deferred.config }

theorem table?_apply (h : Function.Injective names.table) (schema : Schema) (id : TableId) :
    (names.apply schema).table? (names.table id) = (schema.table? id).map names.onTable :=
  find?_map_key Table.id h (fun _ => rfl) id schema.tables

theorem column?_onTable (h : Function.Injective names.column) (table : Table) (id : ColumnId) :
    (names.onTable table).column? (names.column id) = (table.column? id).map names.onColumn :=
  find?_map_key Column.id h (fun _ => rfl) id table.columns

theorem tableNamed?_apply (names : Relabelling) (schema : Schema) (name : String) :
    (names.apply schema).tableNamed? name = (schema.tableNamed? name).map names.onTable :=
  List.find?_map ..

theorem columnNamed?_onTable (names : Relabelling) (table : Table) (name : String) :
    (names.onTable table).columnNamed? name = (table.columnNamed? name).map names.onColumn :=
  List.find?_map ..

theorem primaryKeyColumn?_onTable (names : Relabelling) (table : Table) :
    (names.onTable table).primaryKeyColumn? = table.primaryKeyColumn?.map names.onColumn :=
  List.find?_map ..

theorem apply_modifyTable (h : Function.Injective names.table) (schema : Schema) (id : TableId)
    {f f' : Table → Table} (hf : ∀ t, names.onTable (f t) = f' (names.onTable t)) :
    names.apply (schema.modifyTable id f) =
      (names.apply schema).modifyTable (names.table id) f' := by
  refine congrArg Schema.mk (map_modifyFirst_comm (fun t => ?_) hf _)
  exact decide_eq_decide.mpr h.eq_iff

theorem onTable_addJoin (names : Relabelling) (table : Table) (join : Join) :
    names.onTable (table.addJoin join) = (names.onTable table).addJoin (names.record join) := by
  rw [onTable, Table.addJoin, List.map_append]
  rfl

theorem apply_addJoin (h : Function.Injective names.table) (schema : Schema) (id : TableId)
    (join : Join) :
    names.apply (schema.modifyTable id (·.addJoin join)) =
      (names.apply schema).modifyTable (names.table id) (·.addJoin (names.record join)) :=
  apply_modifyTable h schema id fun t => onTable_addJoin names t join

theorem onTable_link (names : Relabelling) (table : Table) (property : String) (join : Join) :
    names.onTable (table.link property join) =
      (names.onTable table).link property (names.record join) := by
  have hkind : (names.record join).kind = join.kind := rfl
  unfold Table.link
  rw [hkind]
  split
  · have hcolumns : (table.columns.map names.onColumn).filter (·.name ≠ property) =
        (table.columns.filter (·.name ≠ property)).map names.onColumn := List.filter_map
    rw [onTable, List.map_append, ← hcolumns]
    rfl
  · have hcolumns : (modifyFirst (·.name = property) (fun c => { c with foreignKey := some join })
          table.columns).map names.onColumn =
        modifyFirst (·.name = property) (fun c => { c with foreignKey := some (names.record join) })
          (table.columns.map names.onColumn) := by
      refine map_modifyFirst_comm (fun c => ?_) (fun c => ?_) _ <;> rfl
    exact congrArg (fun columns => { names.onTable table with columns := columns }) hcolumns

theorem carries_onColumn (h : Function.Injective names.join) (column : Column) (join : JoinId) :
    (names.onColumn column).carries (names.join join) = column.carries join := by
  rw [Column.carries, Column.carries, onColumn, Option.any_map]
  exact congrArg (column.foreignKey.any ·) (funext fun j => decide_eq_decide.mpr h.eq_iff)

theorem onTable_strip (h : Function.Injective names.join) (table : Table) (join : JoinId) :
    names.onTable (table.strip join) = (names.onTable table).strip (names.join join) := by
  have hjoins : (table.joins.filter (·.id ≠ join)).map names.record =
      (table.joins.map names.record).filter (·.id ≠ names.join join) := by
    rw [List.filter_map]
    refine congrArg _ (List.filter_congr fun j _ => ?_)
    exact decide_eq_decide.mpr (not_congr h.eq_iff.symm)
  have hcolumns : ((table.columns.filter fun c => c.primaryKey || !c.carries join).map fun c =>
        if c.carries join then { c with foreignKey := none } else c).map names.onColumn =
      ((table.columns.map names.onColumn).filter fun c =>
        c.primaryKey || !c.carries (names.join join)).map fun c =>
          if c.carries (names.join join) then { c with foreignKey := none } else c := by
    rw [List.filter_map, List.map_map, List.map_map]
    have hfilter : ((fun c : Column => c.primaryKey || !c.carries (names.join join)) ∘
        names.onColumn) = fun c => c.primaryKey || !c.carries join := funext fun c => by
      rw [Function.comp_apply, carries_onColumn h]
      rfl
    rw [hfilter]
    refine List.map_congr_left fun c _ => ?_
    rw [Function.comp_apply, Function.comp_apply, carries_onColumn h]
    split <;> rfl
  rw [onTable, Table.strip, hjoins, hcolumns]
  rfl

theorem apply_strip (h : Function.Injective names.join) (schema : Schema) (join : JoinId) :
    names.apply (schema.strip join) = (names.apply schema).strip (names.join join) := by
  rw [apply, apply, Schema.strip, Schema.strip, Schema.mapTables, Schema.mapTables,
    Schema.mapTables, Schema.mapTables, List.map_map, List.map_map]
  exact congrArg _ (List.map_congr_left fun t _ => onTable_strip h t join)

theorem declaring?_apply (ht : Function.Injective names.table) (hj : Function.Injective names.join)
    (schema : Schema) (join : JoinId) :
    (names.apply schema).declaring? (names.join join) =
      (schema.declaring? join).map names.table := by
  have hcarried : ((names.apply schema).foreignKey? (names.join join)).map (·.1.id) =
      ((schema.foreignKey? join).map (·.1.id)).map names.table := by
    rw [Schema.foreignKey?, Schema.foreignKey?, apply, Schema.mapTables, List.findSome?_map,
      List.map_findSome?, List.map_findSome?, List.map_findSome?]
    refine congrArg (List.findSome? · schema.tables) (funext fun t => ?_)
    have hfind : (names.onTable t).columns.find? (·.carries (names.join join)) =
        (t.columns.find? (·.carries join)).map names.onColumn := by
      rw [onTable, List.find?_map]
      refine congrArg (Option.map _) (congrArg (List.find? · t.columns) (funext fun c => ?_))
      exact carries_onColumn hj c join
    simp only [Function.comp_apply, hfind, Option.map_map]
    rfl
  have hpending : ((names.apply schema).pending? (names.join join)).map (·.1.id) =
      ((schema.pending? join).map (·.1.id)).map names.table := by
    rw [Schema.pending?, Schema.pending?, apply, Schema.mapTables, List.findSome?_map,
      List.map_findSome?, List.map_findSome?, List.map_findSome?]
    refine congrArg (List.findSome? · schema.tables) (funext fun t => ?_)
    have hfind : (names.onTable t).joins.find? (fun j =>
          j.id = names.join join && j.source = (names.onTable t).id) =
        (t.joins.find? fun j => j.id = join && j.source = t.id).map names.record := by
      rw [onTable, List.find?_map]
      refine congrArg (Option.map _) (congrArg (List.find? · t.joins) (funext fun j => ?_))
      exact congrArg₂ (· && ·) (decide_eq_decide.mpr hj.eq_iff) (decide_eq_decide.mpr ht.eq_iff)
    simp only [Function.comp_apply, hfind, Option.map_map]
    rfl
  rw [Schema.declaring?, Schema.declaring?, hcarried, hpending, Option.map_or]

end Relabelling

/-! ## Foreign keys -/

namespace Source

variable {names : Relabelling} {place : Nat → Nat} {ids ids' : IdSupply} {linking next : Linking}

/-- A document that is being linked, under the new ids. -/
def Linking.relabel (linking : Linking) (names : Relabelling) : Linking where
  tables := linking.tables.map names.onTable
  declared := linking.declared.map (Prod.map names.table names.table)
  mirrors := linking.mirrors.map names.beside
  deferred := linking.deferred.map names.onDeferred

/-- All tables have ids of the supply. -/
def Linking.DrawnFrom (linking : Linking) (ids : IdSupply) : Prop :=
  ∀ id ∈ linking.tables.map (·.id), ∃ k, id = ids.tableId k

theorem Linking.target?_relabel (names : Relabelling) (linking : Linking) (name : String) :
    (linking.relabel names).target? name = (linking.target? name).map names.onTable := by
  rw [target?, target?, relabel, ← List.map_reverse]
  exact List.find?_map ..

theorem map_waitingFor (names : Relabelling) (entity : String) (reference : Reference)
    (join : JoinId) (target : JoinTarget) (choice : ReferenceChoice) :
    (waitingFor entity reference join target choice).map names.onDeferred =
      waitingFor entity reference (names.join join) (names.onTarget target) choice := by
  unfold waitingFor
  split <;> rfl

/-- Linking one foreign key does the same under the new ids, since all tables have ids of the
supply. -/
theorem Linking.link_renumbered (h : names.Moves place ids ids')
    (hdrawn : linking.DrawnFrom ids) {entity property : String} {source : TableId}
    (hsource : ∃ k, source = ids.tableId k) {reference : Reference}
    (hl : linking.link entity source property reference = .ok next) :
    (linking.relabel names).link entity (names.table source) property reference =
      .ok (next.relabel names) := by
  obtain ⟨target, column, choice, htarget, hcolumn, hchoice, rfl⟩ := link_iff.mp hl
  refine link_iff.mpr ⟨names.onTable target, names.onColumn column, choice, ?_, ?_, hchoice, ?_⟩
  · rw [target?_relabel, htarget]
    rfl
  · rw [Relabelling.columnNamed?_onTable, hcolumn]
    rfl
  -- joins are counted the same, so the new id is made with the same number
  have hpairs : Function.Injective (Prod.map names.table names.table) := h.tables.prodMap h.tables
  have hcount := List.count_map_of_injective linking.declared _ hpairs (source, target.id)
  have hid : names.join (linking.joinOf source target column choice).id =
      ((linking.relabel names).joinOf (names.table source) (names.onTable target)
        (names.onColumn column) choice).id := by
    obtain ⟨a, rfl⟩ := hsource
    obtain ⟨b, hb⟩ := hdrawn target.id (List.mem_map.mpr
      ⟨target, List.mem_reverse.mp (List.mem_of_find?_eq_some htarget), rfl⟩)
    refine Eq.trans ?_ (congrArg (JoinId.nth _ _) hcount.symm)
    rw [joinOf, hb, h.joinId, Relabelling.onTable, hb, h.tableId, h.tableId]
  have hjoin : names.record (linking.joinOf source target column choice) =
      (linking.relabel names).joinOf (names.table source) (names.onTable target)
        (names.onColumn column) choice := by
    rw [Relabelling.record, hid]
    rfl
  have hmirrors : (wantedMirror? (source, linking.joinOf source target column choice)).map
      names.beside = wantedMirror? (names.table source,
        names.record (linking.joinOf source target column choice)) :=
    (names.wantedMirror?_beside fun _ _ => h.tables.eq_iff).symm
  let join := linking.joinOf source target column choice
  have htables : (names.apply (linking.bare.modifyTable source (·.link property join))).tables =
      ((names.apply linking.bare).modifyTable (names.table source)
        (·.link property (names.record join))).tables :=
    congrArg Schema.tables (names.apply_modifyTable h.tables linking.bare source
      fun t => names.onTable_link t property join)
  rw [linked, linked, relabel, ← hjoin, List.map_append, List.map_append, ← Option.toList_map,
    hmirrors, map_waitingFor]
  exact congrArg (fun tables => Linking.mk tables _ _ _) htables

theorem Linking.linkAll_renumbered (h : names.Moves place ids ids') (hdrawn : linking.DrawnFrom ids)
    {entity : String} {source : TableId} (hsource : ∃ k, source = ids.tableId k)
    {properties : List Property} (hl : linkAll entity source linking properties = .ok next) :
    linkAll entity (names.table source) (linking.relabel names) properties =
        .ok (next.relabel names) ∧ next.DrawnFrom ids := by
  induction properties generalizing linking with
  | nil =>
      cases hl
      exact ⟨rfl, hdrawn⟩
  | cons property rest ih =>
      rw [Linking.linkAll] at hl ⊢
      split at hl
      · exact ih hdrawn hl
      · obtain ⟨middle, hmiddle, hl⟩ := bind_eq_ok.mp hl
        have hstill : middle.DrawnFrom ids := by
          rw [DrawnFrom, ids_link hmiddle]
          exact hdrawn
        obtain ⟨hrest, hnext⟩ := ih hstill hl
        exact ⟨bind_eq_ok.mpr ⟨_, link_renumbered h hdrawn hsource hmiddle, hrest⟩, hnext⟩

theorem Linking.linkEntities_renumbered (h : names.Moves place ids ids')
    (hdrawn : linking.DrawnFrom ids) {sources : List (Entity × TableId)}
    (hsources : ∀ s ∈ sources, ∃ k, s.2 = ids.tableId k)
    (hl : linkEntities linking sources = .ok next) :
    linkEntities (linking.relabel names) (sources.map (Prod.map id names.table)) =
      .ok (next.relabel names) := by
  induction sources generalizing linking with
  | nil =>
      cases hl
      rfl
  | cons s rest ih =>
      rw [List.forall_mem_cons] at hsources
      obtain ⟨middle, hmiddle, hl⟩ := bind_eq_ok.mp hl
      obtain ⟨hone, hstill⟩ := linkAll_renumbered h hdrawn hsources.1 (inEntity_eq_ok hmiddle)
      refine bind_eq_ok.mpr ⟨middle.relabel names, ?_, ih hstill hsources.2 hl⟩
      rw [id_eq, hone, inEntity_ok]

/-- The schema of a linked document is the same but for its ids. -/
theorem Linking.schema_relabel (h : Function.Injective names.table) (linking : Linking) :
    (linking.relabel names).schema = names.apply linking.schema := by
  rw [Linking.schema, Linking.schema, relabel, List.foldl_map]
  rw [show Schema.mk (linking.tables.map names.onTable) = names.apply linking.bare from rfl]
  show _ = names.apply (linking.mirrors.foldl _ linking.bare)
  generalize linking.bare = schema
  induction linking.mirrors generalizing schema with
  | nil => rfl
  | cons m rest ih =>
      rw [List.foldl_cons, List.foldl_cons, ← ih]
      refine congrArg (List.foldl _ · rest) ?_
      exact (names.apply_addJoin h schema m.1 m.2).symm

end Source

/-! ## Junction tables -/

namespace Relabelling

variable {names : Relabelling}

theorem junctionKey?_onTable (names : Relabelling) (table : Table) (named : Option JunctionColumn) :
    (names.onTable table).junctionKey? named = (table.junctionKey? named).map names.onColumn := by
  rw [Table.junctionKey?, Table.junctionKey?, Option.map_or, primaryKeyColumn?_onTable]
  cases named with
  | none => rfl
  | some n => exact congrArg (Option.or · _) (columnNamed?_onTable names table n.referenced)

theorem junctionKeyType_onTable (names : Relabelling) (table : Table) :
    junctionKeyType (names.onTable table) = junctionKeyType table := by
  rw [junctionKeyType, junctionKeyType, primaryKeyColumn?_onTable, Option.any_map]
  rfl

theorem onTable_addJunctionColumn (names : Relabelling) (junction : Table) (id : ColumnId)
    (wanted : String) (key : Column) (join : Join) :
    names.onTable (junction.addJunctionColumn id wanted key join) =
      (names.onTable junction).addJunctionColumn (names.column id) wanted (names.onColumn key)
        (names.record join) := by
  have hname : (names.onTable junction).freeColumnName wanted = junction.freeColumnName wanted := by
    rw [Table.freeColumnName, Table.freeColumnName, onTable, List.map_map]
    rfl
  rw [Table.addJunctionColumn, Table.addJunctionColumn, hname, Table.addColumn, Table.addColumn,
    onTable, List.map_append]
  rfl

variable {place : Nat → Nat} {ids ids' : IdSupply}

/-- The same junction table is made under new ids. -/
theorem junctionBetween_renamed (ht : Function.Injective names.table) {a b : Table}
    (htable : names.table (ids.tableId 0) = ids'.tableId 0)
    (hcolumn : ∀ i < 4, names.column (ids.columnId i) = ids'.columnId i)
    (hjoin : ∀ side ∈ [a, b], ∀ m, names.join (.nth (ids.tableId 0) side.id m) =
      .nth (ids'.tableId 0) (names.table side.id) m)
    (config : JoinConfig) (aKey bKey : Column) :
    Schema.junctionBetween ids' (names.onConfig config) (names.onTable a) (names.onTable b)
        (names.onColumn aKey) (names.onColumn bKey) =
      Prod.map names.onTable (Prod.map names.record names.record)
        (Schema.junctionBetween ids config a b aKey bKey) := by
  have hrecord : ∀ side ∈ [a, b], ∀ (key : Column) m,
      names.record (junctionJoin config (ids.tableId 0) side key m) =
        junctionJoin (names.onConfig config) (ids'.tableId 0) (names.onTable side)
          (names.onColumn key) m := by
    intro side hside key m
    rw [record, junctionJoin, hjoin side hside, htable]
    rfl
  have hseeded : ∀ name keyType,
      names.onTable (Table.seeded (ids.tableId 0) (ids.columnId 1) name keyType) =
        Table.seeded (ids'.tableId 0) (ids'.columnId 1) name keyType := by
    intro name keyType
    rw [← htable, ← hcolumn 1 (by decide)]
    rfl
  have hself : (if (names.onTable a).id = (names.onTable b).id then 1 else 0) =
      if a.id = b.id then 1 else 0 := if_congr ht.eq_iff rfl rfl
  have hname : junctionName (names.onConfig config) (names.onTable a) (names.onTable b) =
    junctionName config a b := rfl
  rw [Schema.junctionBetween, Schema.junctionBetween]
  simp only [Prod.map_apply, onTable_addJunctionColumn, hself, hname, junctionKeyType_onTable,
    hseeded, hcolumn 2 (by decide), hcolumn 3 (by decide)]
  simp only [Table.seeded, hrecord a (by simp), hrecord b (by simp)]
  rfl

/-- The same junction table is made under the new ids, since the tables it relates have ids of the
supply. Its own four ids have to stay together. -/
theorem Moves.junctionBetween (h : names.Moves place ids ids') {a b : Table}
    (ha : ∃ k, a.id = ids.tableId k) (hb : ∃ k, b.id = ids.tableId k) (config : JoinConfig)
    (aKey bKey : Column) {n : Nat} (hn : ∀ i < 4, place (n + i) = place n + i) :
    Schema.junctionBetween (ids'.skip (place n)) (names.onConfig config) (names.onTable a)
        (names.onTable b) (names.onColumn aKey) (names.onColumn bKey) =
      Prod.map names.onTable (Prod.map names.record names.record)
        (Schema.junctionBetween (ids.skip n) config a b aKey bKey) := by
  have hjoin : ∀ side : Table, (∃ k, side.id = ids.tableId k) → ∀ m,
      names.join (.nth ((ids.skip n).tableId 0) side.id m) =
        .nth ((ids'.skip (place n)).tableId 0) (names.table side.id) m := by
    rintro side ⟨k, hk⟩ m
    rw [hk, IdSupply.tableId_skip, IdSupply.tableId_skip, Nat.add_zero, Nat.add_zero, h.joinId,
      h.tableId]
  refine junctionBetween_renamed h.tables ?_ (fun i hi => ?_) ?_ config aKey bKey
  · rw [IdSupply.tableId_skip, IdSupply.tableId_skip, h.tableId, hn 0 (by decide)]
  · rw [IdSupply.columnId_skip, IdSupply.columnId_skip, h.columnId, hn i hi]
  · rw [List.forall_mem_cons, List.forall_mem_singleton]
    exact ⟨hjoin a ha, hjoin b hb⟩

end Relabelling

namespace Schema

variable {names : Relabelling} {ids ids' : IdSupply} {schema next : Schema}

theorem withJunction_relabel (h : names.Renumbers ids ids') (schema : Schema) (join : JoinId)
    (a b : Table) (made : Table × Join × Join) :
    names.apply (schema.withJunction join a b made) =
      (names.apply schema).withJunction (names.join join) (names.onTable a) (names.onTable b)
        (Prod.map names.onTable (Prod.map names.record names.record) made) := by
  obtain ⟨junction, toA, toB⟩ := made
  have hmirrored := names.apply_addJoin h.tables
    ((schema.strip join).modifyTable a.id (·.addJoin toA.mirror)) b.id toB.mirror
  rw [names.apply_addJoin h.tables (schema.strip join), names.apply_strip h.joins] at hmirrored
  have happend : ∀ base : Schema, names.apply (base.append junction) =
      (names.apply base).append (names.onTable junction) := fun base =>
    congrArg Schema.mk List.map_append
  exact (happend _).trans (congrArg (·.append (names.onTable junction)) hmirrored)

/-- What is valid is valid under ids of another supply. -/
theorem Valid.renumbered {place : Nat → Nat} (h : names.Moves place ids ids') (hv : schema.Valid)
    (hp : schema.MirrorsPlaced) : (names.apply schema).Valid :=
  valid_relabel hv hp ⟨fun _ _ _ _ he => h.tables he, fun _ _ _ _ _ _ he => h.columns he,
    fun _ _ _ _ he => h.joins he⟩

theorem synthesizeJunction_renumbered (h : names.Renumbers ids ids') {m : Nat}
    (hdrawn : schema.DrawnFrom ids m) (hp : schema.MirrorsPlaced) {n : Nat} {join : JoinId}
    {declaring table : TableId} {config : JoinConfig}
    (hj : schema.synthesizeJunction (ids.skip n) join declaring config = .ok (next, table)) :
    (names.apply schema).synthesizeJunction (ids'.skip n) (names.join join) (names.table declaring)
      (names.onConfig config) = .ok (names.apply next, names.table table) := by
  have hplaced := placed_junction hp hj
  obtain ⟨a, b, aKey, bKey, ha, hb, haKey, hbKey, hname, hbuilt⟩ :=
    (synthesizeJunction_iff (Or.inl ⟨_, rfl⟩)).mp hj
  obtain ⟨hv, hnext, rfl⟩ := settled_beside hbuilt
  refine (synthesizeJunction_iff (Or.inl ⟨_, rfl⟩)).mpr ⟨names.onTable a, names.onTable b,
    names.onColumn aKey, names.onColumn bKey, ?_, ?_, ?_, ?_, ?_, ?_⟩
  · rw [names.table?_apply h.tables, ha]
    rfl
  · refine (names.table?_apply h.tables schema config.target.table).trans ?_
    rw [hb]
    rfl
  · exact (names.junctionKey?_onTable a _).trans (congrArg (Option.map names.onColumn) haKey)
  · exact (names.junctionKey?_onTable b _).trans (congrArg (Option.map names.onColumn) hbKey)
  · exact (names.tableNamed?_apply schema _).trans (congrArg (Option.map names.onTable) hname)
  · have hdrawnBy : ∀ {id t}, schema.table? id = some t → ∃ k, t.id = ids.tableId k := fun ht =>
      hdrawn.tableId (mem_of_table? ht).1
    have hmade := h.moves.junctionBetween (hdrawnBy ha) (hdrawnBy hb) config aKey bKey
      (n := n) fun _ _ => rfl
    rw [id] at hmade
    rw [hmade, ← withJunction_relabel h, ← hnext,
      settle_of_valid (hv.renumbered h.moves hplaced), (h.skip n).tableId]
    rfl

/-- A junction table that waits is made under the new ids as well. -/
theorem configureJoin_renumbered (h : names.Renumbers ids ids') {m : Nat}
    (hdrawn : schema.DrawnFrom ids m) (hp : schema.MirrorsPlaced) {n : Nat} {join : JoinId}
    {config : JoinConfig} {configured : Configured} (hkind : config.kind = .manyToMany)
    (hc : schema.configureJoin (ids.skip n) join config = .ok (next, configured)) :
    ∃ configured', (names.apply schema).configureJoin (ids'.skip n) (names.join join)
      (names.onConfig config) = .ok (names.apply next, configured') := by
  obtain ⟨chosen, declaring, hchosen, hcolumn, hdeclaring, hbuilt⟩ :=
    (configureJoin_iff (Or.inl ⟨_, rfl⟩)).mp hc
  obtain ⟨-, hbuilt⟩ := hbuilt.resolve_right fun hother => hother.1 hkind
  obtain ⟨⟨built, table⟩, hj, hr⟩ := bind_eq_ok.mp hbuilt
  cases hr
  refine ⟨.junction (names.table table), (configureJoin_iff (Or.inl ⟨_, rfl⟩)).mpr
    ⟨names.onTable chosen, names.table declaring, ?_, ?_, ?_, Or.inl ⟨hkind, ?_⟩⟩⟩
  · refine (names.table?_apply h.tables schema config.target.table).trans ?_
    rw [hchosen]
    rfl
  · intro c hc
    obtain ⟨old, hold, rfl⟩ := Option.map_eq_some_iff.mp hc
    rw [names.column?_onTable h.columns, Option.isSome_map]
    exact hcolumn old hold
  · rw [names.declaring?_apply h.tables h.joins, hdeclaring]
    rfl
  · rw [synthesizeJunction_renumbered h hdrawn hp hj]
    rfl

end Schema

/-! ## The whole -/

namespace Source

variable {names : Relabelling} {ids ids' : IdSupply}

theorem makeJunctions_renumbered (h : names.Renumbers ids ids') {schema next : Schema} {m n : Nat}
    (hs : schema.Compiled ids m) (hmn : m ≤ n) {deferred : List Deferred}
    (hkinds : ∀ d ∈ deferred, d.config.kind = .manyToMany)
    (hm : makeJunctions (ids.skip n) schema deferred = .ok next) :
    makeJunctions (ids'.skip n) (names.apply schema) (deferred.map names.onDeferred) =
      .ok (names.apply next) := by
  induction deferred generalizing schema m n with
  | nil =>
      cases hm
      rfl
  | cons d rest ih =>
      rw [List.forall_mem_cons] at hkinds
      rw [makeJunctions] at hm
      split at hm
      · rename_i middle configured hc
        obtain ⟨configured', hc'⟩ :=
          Schema.configureJoin_renumbered h hs.drawn hs.placed hkinds.1 hc
        obtain ⟨declaring, -, ⟨-, table, hj⟩ | ⟨hne, -⟩⟩ := Schema.configureJoin_eq_ok hc
        · rw [List.map_cons, makeJunctions]
          simp only [Relabelling.onDeferred, hc']
          exact ih (compiled_junction hs hmn hj) (Nat.le_refl _) hkinds.2 hm
        · -- what waits is many-to-many, so it has no other way to go
          exact absurd hkinds.1 hne
      · cases hm

/-- **What compiles with one supply compiles with every other, to the same schema under the ids of
that supply.** -/
theorem compile_renumbered {source : String} {rest : IdSupply} {parsed : Schema}
    (hc : compile source ids = (.ok parsed, rest)) (ids' : IdSupply) :
    ∃ names : Relabelling, names.Renumbers ids ids' ∧
      ∃ rest', compile source ids' = (.ok (names.apply parsed), rest') := by
  obtain ⟨names, h⟩ := Relabelling.exists_renumbers ids ids'
  obtain ⟨document, tables, linking, hread, hdistinct, htables, hlinking, hvalid, hmade⟩ :=
    compile_eq_ok hc
  have hlinked := sound_of_linkEntities hdistinct htables hlinking
  have hcompiled := hlinked.compiled hvalid
  have hdrawn : Linking.DrawnFrom ⟨tables, [], [], []⟩ ids := by
    intro id hid
    obtain ⟨t, ht, rfl⟩ := List.mem_map.mp hid
    exact (sound_of_tablesOf hdistinct htables).drawn.tableId ht
  have hsources : ∀ s ∈ document.entities.zip (tables.map (·.id)), ∃ k, s.2 = ids.tableId k :=
    fun s hs => hdrawn s.2 (List.of_mem_zip hs).2
  have hlinking' := Linking.linkEntities_renumbered h.moves hdrawn hsources hlinking
  refine ⟨names, h, ids'.skip document.idCount, ?_⟩
  rw [compile, hread]
  refine congrArg (·, _) (bind_eq_ok.mpr ⟨_, tablesOf_renumbered h htables, ?_⟩)
  have hzip : document.entities.zip ((tables.map names.onTable).map (·.id)) =
      (document.entities.zip (tables.map (·.id))).map (Prod.map id names.table) := by
    rw [← List.zip_map_right, List.map_map, List.map_map]
    rfl
  refine bind_eq_ok.mpr ⟨linking.relabel names, hzip ▸ hlinking', ?_⟩
  rw [Linking.schema_relabel h.tables,
    Schema.validate_iff.mpr (hvalid.renumbered h.moves hcompiled.placed)]
  exact makeJunctions_renumbered h hcompiled (Nat.le_refl _) hlinked.deferred hmade

end Source

end ErModel
