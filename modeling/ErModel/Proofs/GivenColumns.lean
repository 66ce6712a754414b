import ErModel.Proofs.Deletions

/-!
# Columns that are given anew

The columns of a table may be replaced by any list, whatever its flags and foreign keys. What makes
columns of it depends on the table only through its key: each is put on the table, one of them is
flagged as the key, and each is normalized. The joins that the table let go of, since no given
column carries them, leave the other tables as well. Those have at most a mirror of them. Giving the
same columns again finds the key chosen and nothing to let go of, and so changes nothing.
-/

namespace ErModel

/-! ## The key -/

/-- The key that given columns get on a table whose key was `previous`. -/
inductive SettlesOn (given : List Column) (previous : Option ColumnId) :
    Option ColumnId → Prop where
  /-- There are no columns, and so there is no key. -/
  | empty (hnone : given = []) : SettlesOn given previous none
  /-- The previous key is flagged. -/
  | flagged {key : ColumnId} (hprevious : previous = some key)
      (hflag : ∃ c ∈ given, c.id = key ∧ c.primaryKey = true) : SettlesOn given previous (some key)
  /-- The previous key is not flagged, and this column is the first that is. -/
  | first {c : Column} (hprevious : ∀ d ∈ given, d.primaryKey = true → previous ≠ some d.id)
      (hfirst : given.find? (·.primaryKey) = some c) : SettlesOn given previous (some c.id)
  /-- No column is flagged, but the previous key is there. -/
  | kept {key : ColumnId} (hprevious : previous = some key)
      (hnone : ∀ c ∈ given, c.primaryKey = false) (hthere : ∃ c ∈ given, c.id = key) :
      SettlesOn given previous (some key)

section

variable {given : List Column} {previous key : Option ColumnId}

theorem mem_flagged {k : ColumnId} : k ∈ (given.filter (·.primaryKey)).map (·.id) ↔
    ∃ c ∈ given, c.id = k ∧ c.primaryKey = true := by
  rw [List.mem_map]
  constructor
  · rintro ⟨c, hc, hid⟩
    obtain ⟨hc, hflag⟩ := List.mem_filter.mp hc
    exact ⟨c, hc, hid, hflag⟩
  · rintro ⟨c, hc, hid, hflag⟩
    exact ⟨c, List.mem_filter.mpr ⟨hc, hflag⟩, hid⟩

/-- **The key is chosen as told**, if there is one to choose. -/
theorem chooseKey?_eq_some {k : ColumnId} :
    chooseKey? given previous = some k ↔ SettlesOn given previous (some k) := by
  have hflagged : ∀ p, previous.filter (· ∈ (given.filter (·.primaryKey)).map (·.id)) = some p ↔
      previous = some p ∧ ∃ c ∈ given, c.id = p ∧ c.primaryKey = true := fun p => by
    rw [Option.filter_eq_some_iff, decide_eq_true_eq, mem_flagged]
  have hhead : ((given.filter (·.primaryKey)).map (·.id)).head? =
      (given.find? (·.primaryKey)).map (·.id) := by
    rw [List.head?_map, List.head?_filter]
  have hpresent : ∀ p, (previous.filter fun p => given.any (·.id = p)) = some p ↔
      previous = some p ∧ ∃ c ∈ given, c.id = p := fun p => by
    simp [Option.filter_eq_some_iff]
  simp only [chooseKey?, hhead]
  constructor
  · intro h
    cases hkept : previous.filter (· ∈ (given.filter (·.primaryKey)).map (·.id)) with
    | some p =>
        rw [hkept] at h
        obtain rfl : p = k := Option.some.inj h
        obtain ⟨hprevious, hflag⟩ := (hflagged p).mp hkept
        exact .flagged hprevious hflag
    | none =>
        rw [hkept, Option.none_or] at h
        cases hfirst : given.find? (·.primaryKey) with
        | some c =>
            rw [hfirst] at h
            obtain rfl : c.id = k := Option.some.inj h
            refine .first (fun d hd hflag hprevious => ?_) hfirst
            rw [(hflagged d.id).mpr ⟨hprevious, d, hd, rfl, hflag⟩] at hkept
            cases hkept
        | none =>
            rw [hfirst, Option.map_none, Option.none_or] at h
            obtain ⟨hprevious, hthere⟩ := (hpresent k).mp h
            exact .kept hprevious (by simpa using hfirst) hthere
  · intro h
    have hnot : (∀ d ∈ given, d.primaryKey = true → previous ≠ some d.id) →
        previous.filter (· ∈ (given.filter (·.primaryKey)).map (·.id)) = none := fun hno => by
      refine Option.eq_none_iff_forall_ne_some.mpr fun p hp => ?_
      obtain ⟨hprevious, c, hc, rfl, hflag⟩ := (hflagged p).mp hp
      exact hno c hc hflag hprevious
    cases h with
    | flagged hprevious hflag => rw [(hflagged k).mpr ⟨hprevious, hflag⟩]; rfl
    | first hprevious hfirst => rw [hnot hprevious, hfirst]; rfl
    | kept hprevious hnone hthere =>
        have hno : given.find? (·.primaryKey) = none := List.find?_eq_none.mpr fun c hc => by
          simp [hnone c hc]
        rw [hnot fun d hd hflag => absurd hflag (by simp [hnone d hd]), hno,
          (hpresent k).mpr ⟨hprevious, hthere⟩]
        rfl

/-- The key that is chosen is chosen again. -/
theorem SettlesOn.again (h : SettlesOn given previous key) : SettlesOn given key key := by
  cases h with
  | empty hnone => exact .empty hnone
  | flagged _ hflag => exact .flagged rfl hflag
  | @first c _ hfirst =>
      exact .flagged rfl ⟨c, List.mem_of_find?_eq_some hfirst, rfl, List.find?_some hfirst⟩
  | kept _ hnone hthere => exact .kept rfl hnone hthere

end

/-- The column on the table, normalized, and the key of the table if its id is this. -/
def Column.placed (column : Column) (table : TableId) (key : Option ColumnId) : Column :=
  normalize { column with tableId := table, primaryKey := some column.id = key }

theorem not_settlesOn_nil {previous : Option ColumnId} {k : ColumnId} :
    ¬ SettlesOn [] previous (some k) := by
  intro h
  cases h with
  | flagged _ hflag => obtain ⟨_, hc, -⟩ := hflag; cases hc
  | first _ hfirst => cases hfirst
  | kept _ _ hthere => obtain ⟨_, hc, -⟩ := hthere; cases hc

/-- Flagging and normalizing given columns of a table gives them their places on it. -/
theorem settleKey_iff {given columns : List Column} {table : TableId}
    {previous key : Option ColumnId} :
    (∃ settled, settleKey (given.map fun c => { c with tableId := table }) previous =
      .ok (settled, key) ∧ columns = settled.map (·.normalize)) ↔
      SettlesOn given previous key ∧ columns = given.map (·.placed table key) := by
  have hchoose : chooseKey? (given.map fun c => { c with tableId := table }) previous =
      chooseKey? given previous := by
    simp only [chooseKey?, List.filter_map, List.map_map, List.any_map, Function.comp_def]
  rw [settleKey, hchoose, List.isEmpty_map]
  by_cases hnil : given = []
  · subst hnil
    simp only [List.isEmpty_nil, if_true, Except.ok.injEq, Prod.mk.injEq, List.map_nil]
    constructor
    · rintro ⟨_, ⟨rfl, rfl⟩, rfl⟩
      exact ⟨.empty rfl, rfl⟩
    · rintro ⟨hkey, rfl⟩
      refine ⟨[], ⟨rfl, ?_⟩, rfl⟩
      cases key with
      | none => rfl
      | some k => exact absurd hkey not_settlesOn_nil
  · rw [if_neg (by simpa using hnil)]
    cases hkey : chooseKey? given previous with
    | none =>
        refine iff_of_false (fun ⟨_, h, _⟩ => nomatch h) fun ⟨h, _⟩ => ?_
        cases key with
        | none => cases h with | empty hnone => exact hnil hnone
        | some k => rw [chooseKey?_eq_some.mpr h] at hkey; cases hkey
    | some k =>
        have hplaced : ((given.map fun c => { c with tableId := table }).map fun c =>
            { c with primaryKey := c.id = k }).map (·.normalize) =
              given.map (·.placed table (some k)) := by
          rw [List.map_map, List.map_map]
          refine List.map_congr_left fun c _ => ?_
          simp only [Function.comp, Column.placed, Option.some.injEq]
        simp only [Except.ok.injEq, Prod.mk.injEq]
        constructor
        · rintro ⟨_, ⟨rfl, rfl⟩, rfl⟩
          exact ⟨chooseKey?_eq_some.mp hkey, hplaced⟩
        · rintro ⟨h, rfl⟩
          cases key with
          | none => cases h with | empty hnone => exact absurd hnone hnil
          | some k' =>
              have hsame := (chooseKey?_eq_some.mpr h).symm.trans hkey
              cases hsame
              exact ⟨_, ⟨rfl, rfl⟩, hplaced.symm⟩

/-! ## The table -/

/-- The joins that the table lets go of: those that its columns carry and no given one does. -/
def Table.letsGo (table : Table) (given : List Column) : List JoinId :=
  table.carriedJoins.filter fun id => given.all (!·.carries id)

/-- Where no column carries any of the joins, only records beside the columns are stripped. -/
theorem Table.stripAll_of_uncarried {table : Table} {joins : List JoinId}
    (h : ∀ c ∈ table.columns, ∀ join ∈ joins, c.carries join = false) :
    table.stripAll joins = { table with joins := table.joins.filter (·.id ∉ joins) } := by
  have hcolumns : (table.cut joins).columns = table.columns := by
    rw [← stripAll_eq_cut]
    exact columns_stripAll_of_uncarried h
  rw [stripAll_eq_cut]
  exact congrArg (fun columns =>
    { table with joins := table.joins.filter (·.id ∉ joins), columns := columns }) hcolumns

theorem Table.mem_letsGo {table : Table} {given : List Column} {id : JoinId} :
    id ∈ table.letsGo given ↔
      (∃ c ∈ table.columns, c.carries id = true) ∧ ∀ c ∈ given, c.carries id = false := by
  rw [letsGo, List.mem_filter, List.all_eq_true, carriedJoins, List.mem_filterMap]
  simp [Column.carries, Option.any_eq_true]

namespace Schema

variable {schema next : Schema} {t : Table} {given : List Column} {key : Option ColumnId}

/-- The schema with given columns on the table, and without the joins that it lets go of. -/
def regive (schema : Schema) (t : Table) (given : List Column) (key : Option ColumnId) : Schema :=
  (schema.modifyTable t.id fun u =>
    { u with columns := given.map (·.placed t.id key), primaryKey := key }).stripAll
      (t.letsGo given)

theorem letsGo_eq (t : Table) (given : List Column) (key : Option ColumnId) :
    t.carriedJoins.filter
      (· ∉ (given.map (·.placed t.id key)).filterMap (·.foreignKey.map (·.id))) =
        t.letsGo given := by
  have hcarried : (given.map (·.placed t.id key)).filterMap (·.foreignKey.map (·.id)) =
      given.filterMap (·.foreignKey.map (·.id)) := List.filterMap_map
  refine List.filter_congr fun id _ => ?_
  rw [hcarried, Bool.eq_iff_iff, decide_eq_true_eq, List.all_eq_true, List.mem_filterMap]
  simp [Column.carries, Bool.eq_false_iff, Option.any_eq_true]

/-- **Giving a table columns is decided by the key and by what comes of the schema.** -/
theorem replaceColumns_iff (hids : (schema.tables.map (·.id)).Nodup) (ht : t ∈ schema.tables) :
    schema.replaceColumns t.id given = .ok next ↔ ∃ key, SettlesOn given t.primaryKey key ∧
      next.Valid ∧ next = schema.regive t given key := by
  rw [replaceColumns, bind_eq_ok]
  constructor
  · rintro ⟨current, hcurrent, h⟩
    rw [requireTable_eq_ok, table?_of_mem hids ht] at hcurrent
    cases hcurrent
    obtain ⟨⟨columns, key⟩, hk, h⟩ := bind_eq_ok.mp h
    obtain ⟨hv, hn⟩ := settled.mp h
    obtain ⟨hkey, hcolumns⟩ := settleKey_iff.mp ⟨columns, hk, rfl⟩
    refine ⟨key, hkey, hv, hn.trans ?_⟩
    rw [regive, ← letsGo_eq t given key, ← hcolumns]
  · rintro ⟨key, hkey, hv, hn⟩
    obtain ⟨columns, hk, hcolumns⟩ := settleKey_iff.mpr ⟨hkey, rfl⟩
    refine ⟨t, requireTable_eq_ok.mpr (table?_of_mem hids ht), bind_eq_ok.mpr ⟨_, hk, ?_⟩⟩
    refine settled.mpr ⟨hv, hn.trans ?_⟩
    rw [regive, ← letsGo_eq t given key, hcolumns]

/-- A record beside the columns, of a join that a column carries, is a mirror on another table. -/
theorem mirror_of_carried (hv : schema.Valid) (ht : t ∈ schema.tables) {c : Column}
    (hc : c ∈ t.columns) {u : Table} (hu : u ∈ schema.tables) {j : Join} (hj : j ∈ u.joins)
    (hcarries : c.carries j.id = true) : j.source ≠ u.id ∧ u.id ≠ t.id := by
  have hsource : j.source ≠ u.id := by
    intro hpending
    have hmem := mem_owningJoins_of_pending hu hj hpending
    cases (owner_of_carries hv ht hc hmem hcarries).2
  refine ⟨hsource, fun he => hsource ?_⟩
  -- the mirror names the table of its owning record as its source
  have hmem : (u, j) ∈ schema.allMirrors :=
    mem_allMirrors.mpr ⟨hu, List.mem_filter.mpr ⟨hj, by simpa using hsource⟩⟩
  obtain ⟨o, ho, hid, hholder⟩ := owner_of_mirror hv hmem
  have hcarrier := (owner_of_carries hv ht hc ho (hid ▸ hcarries)).1
  rw [hholder, hcarrier, he]

/-- **What giving a table columns leaves of all tables.** -/
theorem tables_regive (hv : schema.Valid) (ht : t ∈ schema.tables) :
    (schema.regive t given key).tables = schema.tables.map fun u =>
      if u.id = t.id then { u with columns := given.map (·.placed t.id key), primaryKey := key }
      else { u with joins := u.joins.filter fun j => j.source = u.id || j.id ∉ t.letsGo given } := by
  have huncarried : ∀ u ∈ schema.tables, u.id ≠ t.id → ∀ d ∈ u.columns,
      ∀ id ∈ t.letsGo given, d.carries id = false := by
    intro u hu hne d hd id hid
    obtain ⟨⟨c, hc, hcarries⟩, -⟩ := Table.mem_letsGo.mp hid
    exact eq_false_of_ne_true fun hd' => hne (column_of_carries hv hu ht hd hc hd' hcarries).1
  rw [regive, stripAll_eq, mapTables, tables_modifyTable hv.ids, List.map_map]
  refine List.map_congr_left fun u hu => ?_
  rw [Function.comp]
  by_cases he : u.id = t.id
  · -- no given column carries what is let go of, and no record beside them is of it
    obtain rfl := eq_of_key_eq hv.ids hu ht he
    have hjoins : u.joins.filter (·.id ∉ u.letsGo given) = u.joins :=
      List.filter_eq_self.mpr fun j hj => by
        rw [decide_eq_true_eq]
        intro hid
        obtain ⟨⟨c, hc, hcarries⟩, -⟩ := Table.mem_letsGo.mp hid
        exact (mirror_of_carried hv ht hc hu hj hcarries).2 rfl
    rw [if_pos rfl, if_pos rfl, Table.stripAll_of_uncarried, hjoins]
    intro d hd id hid
    obtain ⟨c, hc, rfl⟩ := List.mem_map.mp hd
    exact (Table.mem_letsGo.mp hid).2 c hc
  · have hjoins : u.joins.filter (·.id ∉ t.letsGo given) =
        u.joins.filter fun j => j.source = u.id || j.id ∉ t.letsGo given :=
      List.filter_congr fun j hj => by
        by_cases hid : j.id ∈ t.letsGo given
        · obtain ⟨⟨c, hc, hcarries⟩, -⟩ := Table.mem_letsGo.mp hid
          simp [hid, (mirror_of_carried hv ht hc hu hj hcarries).1]
        · simp [hid]
    rw [if_neg he, if_neg he, Table.stripAll_of_uncarried (huncarried u hu he), hjoins]

/-- What columns of one table leave of the others and of it, and that they leave no more when they
are given again. -/
structure Regives (schema next : Schema) (t : Table) (given : List Column)
    (key : Option ColumnId) : Prop where
  settles : SettlesOn given t.primaryKey key
  /-- The table has the given columns in their places, and other tables lose mirrors alone. -/
  tables : next.tables = schema.tables.map fun u =>
    if u.id = t.id then { u with columns := given.map (·.placed t.id key), primaryKey := key }
    else { u with joins := u.joins.filter fun j => j.source = u.id || j.id ∉ t.letsGo given }
  /-- A join that was on a column of the table and is on no given one has no record any more. -/
  dropped : ∀ c ∈ t.columns, ∀ join, c.carries join = true →
    (∀ d ∈ given, d.carries join = false) →
      ∀ u ∈ next.tables, ∀ record ∈ u.records, record.id ≠ join
  again : next.replaceColumns t.id given = .ok next

theorem no_record_regive {u : Table} (hu : u ∈ (schema.regive t given key).tables) {record : Join}
    (hr : record ∈ u.records) : record.id ∉ t.letsGo given := by
  rw [regive, stripAll_eq] at hu
  obtain ⟨v, -, rfl⟩ := List.mem_map.mp hu
  rw [Table.stripAll_eq_cut] at hr
  exact (Table.mem_records_cut.mp hr).2

/-- Given again, the columns are in their places already, and nothing is let go of. -/
theorem regive_again (hn : (schema.regive t given key).Valid) (hv : schema.Valid)
    (ht : t ∈ schema.tables) (hkey : SettlesOn given t.primaryKey key) :
    (schema.regive t given key).replaceColumns t.id given = .ok (schema.regive t given key) := by
  let u : Table := { t with columns := given.map (·.placed t.id key), primaryKey := key }
  have hu : u ∈ (schema.regive t given key).tables := by
    rw [tables_regive hv ht]
    exact List.mem_map.mpr ⟨t, ht, if_pos rfl⟩
  have hnone : u.letsGo given = [] := by
    refine List.eq_nil_iff_forall_not_mem.mpr fun id hid => ?_
    obtain ⟨⟨c, hc, hcarries⟩, hno⟩ := Table.mem_letsGo.mp hid
    obtain ⟨d, hd, rfl⟩ := List.mem_map.mp hc
    exact Bool.false_ne_true ((hno d hd).symm.trans hcarries)
  have hsame : ((schema.regive t given key).modifyTable u.id fun v =>
      { v with columns := given.map (·.placed u.id key), primaryKey := key }) =
        schema.regive t given key :=
    congrArg Schema.mk ((tables_modifyTable hn.ids u.id _).trans (map_key_eq_self hn.ids hu rfl))
  refine (replaceColumns_iff hn.ids hu).mpr ⟨key, hkey.again, hn, ?_⟩
  show schema.regive t given key = stripAll (modifyTable _ u.id _) (u.letsGo given)
  rw [hnone, hsame]
  rfl

/-- **Giving a table columns restores what must hold of columns**, and giving them again changes
nothing. -/
theorem replaceColumns_restores (hv : schema.validate = .ok ()) (ht : t ∈ schema.tables)
    (h : schema.replaceColumns t.id given = .ok next) :
    ∃ key, schema.Regives next t given key := by
  have hv := validate_iff.mp hv
  obtain ⟨key, hkey, hn, rfl⟩ := (replaceColumns_iff hv.ids ht).mp h
  refine ⟨key, hkey, tables_regive hv ht, ?_, regive_again hn hv ht hkey⟩
  rintro c hc join hcarries hno u hu record hr rfl
  exact no_record_regive hu hr (Table.mem_letsGo.mpr ⟨⟨c, hc, hcarries⟩, hno⟩)

/-- A text and the key of the comments, in no order and neither of them flagged. -/
def textOfComments : List Column :=
  [{ Column.plain ⟨"c3"⟩ ⟨"p"⟩ "text" with nullable := true, autoIncrement := true },
    { Column.plain ⟨"c1"⟩ ⟨"c"⟩ "id" with nullable := true }]

/-- The text takes the place of the foreign key of the comments. They keep their key, and posts lose
the mirror. -/
theorem commentsBySlug_regiven : commentsBySlug.validate = .ok () ∧ ∃ comments next key,
    comments ∈ commentsBySlug.tables ∧ comments.id = ⟨"c"⟩ ∧
      commentsBySlug.replaceColumns comments.id textOfComments = .ok next ∧
      next.tables.map (·.primaryKey) = [some ⟨"p1"⟩, some ⟨"c1"⟩] ∧
      next.tables.flatMap (·.records) = [] ∧
      commentsBySlug.Regives next comments textOfComments key := by
  have hvalidate : commentsBySlug.validate = .ok () := ok_of_toOption (by decide +kernel)
  obtain ⟨comments, hcomments, hid⟩ : ∃ t ∈ commentsBySlug.tables, t.id = ⟨"c"⟩ := by
    decide +kernel
  have hresult : (commentsBySlug.replaceColumns ⟨"c"⟩ textOfComments).toOption.map (fun next =>
      (next.tables.map (·.primaryKey), next.tables.flatMap (·.records))) =
        some ([some ⟨"p1"⟩, some ⟨"c1"⟩], []) := by decide +kernel
  obtain ⟨next, hnext, he⟩ := Option.map_eq_some_iff.mp hresult
  obtain ⟨hkeys, hrecords⟩ := Prod.mk.inj he
  rw [← hid] at hnext
  have hnext := ok_of_toOption hnext
  obtain ⟨key, hregives⟩ := replaceColumns_restores hvalidate hcomments hnext
  exact ⟨hvalidate, comments, next, key, hcomments, hid, hnext, hkeys, hrecords, hregives⟩

end Schema

end ErModel
