import ErModel.Proofs.GivenColumns
import ErModel.Proofs.MirrorRuns

/-!
# What the draft of a column does to its table

A draft may hold anything, and committing it succeeds nonetheless. It replaces its column among the
columns of the table, which are given anew, so its flags and its type only say what is asked for:
the key goes to the draft if it asks for it and stays where it was if it does not, and what cannot
hold beside that is cleared. A foreign key is not the draft's to change, and so no join is touched.
The other columns can lose the flag of the key, and with it that they count by themselves.
-/

namespace ErModel

/-! ## Columns in their places -/

namespace Column

/-- What joins know of a column: its id, and its foreign key. -/
def link (column : Column) : ColumnId × Option Join := (column.id, column.foreignKey)

/-- The draft with the foreign key of another column in the place of its own. -/
def linkedAs (draft column : Column) : Column := { draft with foreignKey := column.foreignKey }

/-- The column when it is not the key: it does not count by itself either. -/
def unkeyed (column : Column) : Column :=
  { column with primaryKey := false, autoIncrement := false }

variable {column : Column} {table : TableId} {key : Option ColumnId}

/-- The key is in its place already. -/
theorem placed_key (hfault : column.fault? = none) (hhome : column.tableId = table)
    (hflag : column.primaryKey = true) (hkey : some column.id = key) :
    column.placed table key = column := by
  have hsame : { column with tableId := table, primaryKey := decide (some column.id = key) } =
      column := by
    rw [← hhome, decide_eq_true hkey, ← hflag]
  rw [placed, hsame, normalize_eq_self hfault]

/-- What is not the key is in its place when it does not say that it is. -/
theorem placed_other (hfault : column.fault? = none) (hhome : column.tableId = table)
    (hkey : some column.id ≠ key) : column.placed table key = column.unkeyed := by
  obtain ⟨-, hnullable, hscale⟩ := fault?_eq_none.mp hfault
  have hnull : (column.nullable && !column.unique) = column.nullable := by
    cases hn : column.nullable with
    | false => rfl
    | true => rw [(hnullable hn).1]; rfl
  simp only [placed, normalize, unkeyed, decide_eq_false hkey, hhome, Bool.and_false,
    Bool.false_and, Bool.not_false, Bool.and_true, hnull, DataType.dropLooseScale_eq_self hscale]

/-- Columns with the same links have the same ids. -/
theorem ids_of_links {columns columns' : List Column}
    (h : columns.map (·.link) = columns'.map (·.link)) :
    columns.map (·.id) = columns'.map (·.id) := by
  have hids := congrArg (List.map Prod.fst) h
  rwa [List.map_map, List.map_map] at hids

end Column

namespace Table

variable {t : Table} {given : List Column} {k : ColumnId}

/-- Given columns with ids of their own, one of them the key, make a sound table. -/
theorem sound_placed (hn : (given.map (·.id)).Nodup) (hk : k ∈ given.map (·.id)) :
    Sound { t with columns := given.map (·.placed t.id (some k)), primaryKey := some k } where
  columnIds := by
    rw [List.map_map]
    exact hn
  home := by
    intro c hc
    obtain ⟨d, -, rfl⟩ := List.mem_map.mp hc
    rfl
  faultless := by
    intro c hc
    obtain ⟨d, -, rfl⟩ := List.mem_map.mp hc
    exact Column.fault?_normalize _
  key := by
    obtain ⟨c, hc, rfl⟩ := List.mem_map.mp hk
    refine Or.inr ⟨c.placed t.id (some c.id), ?_, rfl⟩
    have hflag : (fun d : Column => d.primaryKey) ∘ (fun d : Column => d.placed t.id (some c.id)) =
        fun d => decide (d.id = c.id) := funext fun d => decide_eq_decide.mpr Option.some_inj
    rw [List.filter_map, hflag, filter_key hn hc]
    rfl

/-- Where the columns have the ids and foreign keys that the table had, joins sit where they sat. -/
theorem seats_placed {key : Option ColumnId} (hkept : given.map (·.link) = t.columns.map (·.link)) :
    seats { t with columns := given.map (·.placed t.id key), primaryKey := key } = t.seats := by
  have hcolumns : ∀ columns : List Column, columns.filterMap (fun c => c.foreignKey.map fun join =>
      (⟨t.id, some c.id, join⟩ : Seat)) = (columns.map (·.link)).filterMap
        fun p => p.2.map fun join => ⟨t.id, some p.1, join⟩ := fun columns => by
    rw [List.filterMap_map]
    rfl
  have hplaced : (given.map (·.placed t.id key)).map (·.link) = t.columns.map (·.link) := by
    rw [← hkept]
    exact List.map_map
  rw [seats, seats, hcolumns t.columns, ← hplaced]
  exact congrArg (· ++ _) (hcolumns _)

/-- And no join is let go of. -/
theorem letsGo_of_kept (hkept : given.map (·.link) = t.columns.map (·.link)) :
    t.letsGo given = [] := by
  refine List.eq_nil_iff_forall_not_mem.mpr fun id hid => ?_
  obtain ⟨⟨c, hc, hcarries⟩, hno⟩ := mem_letsGo.mp hid
  obtain ⟨d, hd, he⟩ := List.mem_map.mp (hkept ▸ List.mem_map.mpr ⟨c, hc, rfl⟩)
  have hf : d.foreignKey = c.foreignKey := congrArg Prod.snd he
  have hnone := hno d hd
  rw [Column.carries, hf] at hnone
  exact Bool.false_ne_true (hnone.symm.trans hcarries)

end Table

namespace Schema

variable {schema next : Schema} {t : Table} {given : List Column} {k : ColumnId}

/-- **Columns with the ids and foreign keys that the table had leave the schema valid.** -/
theorem valid_regive (hv : schema.Valid) (ht : t ∈ schema.tables)
    (hkept : given.map (·.link) = t.columns.map (·.link))
    (hk : k ∈ t.columns.map (·.id)) : (schema.regive t given (some k)).Valid := by
  let change : Table → Table := fun u =>
    { u with columns := given.map (·.placed t.id (some k)), primaryKey := some k }
  have hregive : schema.regive t given (some k) = schema.modifyTable t.id change := by
    rw [regive, Table.letsGo_of_kept hkept]
    rfl
  have hgivenIds : given.map (·.id) = t.columns.map (·.id) := Column.ids_of_links hkept
  have hcolumnIds : (change t).columns.map (·.id) = t.columns.map (·.id) := by
    rw [← hgivenIds]
    exact List.map_map
  have htable : ∀ u ∈ schema.tables, u.id = t.id → u = t := fun u hu he =>
    eq_of_key_eq hv.ids hu ht he
  have howners : (schema.modifyTable t.id change).owners = schema.owners :=
    collect_modifyTable_eq fun u hu he => by
      obtain rfl := htable u hu he
      rw [Table.owners_eq_seats, Table.owners_eq_seats, Table.seats_placed hkept]
  have hrebuilt : schema.Rebuilt (schema.modifyTable t.id change) [] [] [] := by
    refine rebuilt_of_dropped ?_ ?_ (howners.trans ?_) ?_ fun s hs => ?_
    · have hids : (schema.modifyTable t.id change).tables.map (·.id) = schema.tables.map (·.id) :=
        ids_modifyTable fun _ => rfl
      exact hids ▸ hv.ids
    · have hnames : (schema.modifyTable t.id change).tables.map (·.name) =
          schema.tables.map (·.name) := names_modifyTable fun _ => rfl
      exact hnames ▸ hv.names
    · exact (List.filter_eq_self.mpr fun _ _ => by simp).symm
    · refine Eq.trans (collect_modifyTable_eq fun _ _ _ => rfl) ?_
      exact (List.filter_eq_self.mpr fun _ _ => by simp).symm
    · rwa [seats_modifyTable_eq fun u hu he => htable u hu he ▸ Table.seats_placed hkept]
        at hs
  rw [hregive, hrebuilt.valid_iff_lost hv fun _ => False]
  · refine ⟨(sound_modifyTable_iff hv.ids hv.tables ht).mpr ?_,
      fun _ h => absurd h List.not_mem_nil, ?_⟩
    · exact Table.sound_placed (hgivenIds ▸ (hv.tables t ht).columnIds) (hgivenIds ▸ hk)
    · rintro ⟨_, _, _, _, _, hlost⟩
      exact hlost
  · intro o ho _ target htarget
    refine iff_of_true (KeptBy.offers ?_ (offers_of_owner hv ho htarget)) not_false
    refine keptBy_modifyTable hv.ids fun u hu he => ?_
    obtain rfl := htable u hu he
    exact ⟨rfl, hcolumnIds.symm ▸ List.Subset.refl _⟩

end Schema

/-! ## Drafts -/

section

variable {t : Table} {c draft : Column}

/-- What a draft in the place of the column `c` makes of the table: the draft is saved under the key
of the table, and no column but these two has its flags. -/
structure Table.Saves (t u : Table) (c draft saved : Column) (key : ColumnId) : Prop where
  /-- A draft that asks for the key has it, and otherwise the key is what it was. -/
  chosen : if draft.primaryKey then key = c.id else t.primaryKey = some key
  keyColumn : u.primaryKey = some key
  oneKey : (u.columns.filter (·.primaryKey)).map (·.id) = [key]
  normalized : saved = Column.normalize
    { draft with primaryKey := c.id = key, tableId := c.tableId, foreignKey := c.foreignKey }
  columns : u.columns = t.columns.map fun d =>
    if d.id = c.id then saved else if d.id = key then d else d.unkeyed
  links : u.columns.map (·.link) = t.columns.map (·.link)
  rest : u = { t with columns := u.columns, primaryKey := u.primaryKey }

theorem mem_mergeDraft {d : Column} : d ∈ Session.mergeDraft t draft ↔
    ∃ old ∈ t.columns, d = if old.id = draft.id then draft
      else { old with primaryKey := old.primaryKey && !draft.primaryKey } := by
  rw [Session.mergeDraft, List.mem_map]
  exact exists_congr fun old => and_congr_right fun _ => eq_comm

/-- **A draft cannot take the key away**, only take it over. -/
theorem settlesOn_mergeDraft (hs : t.Sound) (hc : c ∈ t.columns) (hid : draft.id = c.id) :
    ∃ key, SettlesOn (Session.mergeDraft t draft) t.primaryKey (some key) ∧
      (if draft.primaryKey then key = c.id else t.primaryKey = some key) ∧
      ∃ d ∈ t.columns, d.id = key ∧ (d.id ≠ c.id → d.primaryKey = true) := by
  have hdraft : draft ∈ Session.mergeDraft t draft :=
    mem_mergeDraft.mpr ⟨c, hc, (if_pos hid.symm).symm⟩
  obtain ⟨key, hkey, hprimary⟩ := hs.key.resolve_left (List.ne_nil_of_mem hc)
  have hmem : key ∈ t.columns ∧ key.primaryKey = true :=
    List.mem_filter.mp (hkey ▸ List.mem_singleton_self key)
  have hothers : ∀ old ∈ t.columns, old.primaryKey = true → old = key := fun old hold hflag =>
    List.mem_singleton.mp (hkey ▸ List.mem_filter.mpr ⟨hold, hflag⟩)
  cases hp : draft.primaryKey with
  | true =>
      -- the draft is the only column that is flagged
      have hflagged : ∀ d ∈ Session.mergeDraft t draft, d.primaryKey = true → d = draft := by
        intro d hd hflag
        obtain ⟨old, -, rfl⟩ := mem_mergeDraft.mp hd
        split
        · rfl
        · rename_i hne
          simp [hne, hp] at hflag
      refine ⟨c.id, ?_, rfl, c, hc, rfl, fun hne => absurd rfl hne⟩
      by_cases hprevious : t.primaryKey = some c.id
      · exact .flagged hprevious ⟨draft, hdraft, hid, hp⟩
      · obtain ⟨d, hfirst⟩ :=
          Option.isSome_iff_exists.mp (List.find?_isSome.mpr ⟨draft, hdraft, hp⟩)
        obtain rfl := hflagged d (List.mem_of_find?_eq_some hfirst) (List.find?_some hfirst)
        rw [← hid] at hprevious ⊢
        exact .first (fun e he hflag => hflagged e he hflag ▸ hprevious) hfirst
  | false =>
      refine ⟨key.id, ?_, hprimary, key, hmem.1, rfl, fun _ => hmem.2⟩
      by_cases he : key.id = c.id
      · -- the key is the column of the draft, so that no column is flagged
        refine .kept hprimary (fun d hd => ?_) ⟨draft, hdraft, hid.trans he.symm⟩
        obtain ⟨old, hold, rfl⟩ := mem_mergeDraft.mp hd
        split
        · exact hp
        · rename_i hne
          refine eq_false_of_ne_true fun hflag => hne ?_
          have hflag : (old.primaryKey && !draft.primaryKey) = true := hflag
          rw [hothers old hold (Bool.and_eq_true_iff.mp hflag).1, he, hid]
      · refine .flagged hprimary ⟨_, mem_mergeDraft.mpr ⟨key, hmem.1, rfl⟩, ?_⟩
        rw [if_neg (hid ▸ he)]
        exact ⟨rfl, by simp [hmem.2, hp]⟩

theorem link_mergeDraft (hs : t.Sound) (hc : c ∈ t.columns) (hid : draft.id = c.id)
    (hf : draft.foreignKey = c.foreignKey) :
    (Session.mergeDraft t draft).map (·.link) = t.columns.map (·.link) := by
  rw [Session.mergeDraft, List.map_map]
  refine List.map_congr_left fun d hd => ?_
  by_cases he : d.id = draft.id
  · obtain rfl := eq_of_key_eq hs.columnIds hd hc (he.trans hid)
    rw [Function.comp, if_pos he, Column.link, Column.link, hid, hf]
  · rw [Function.comp, if_neg he]
    rfl

/-- The other columns are in their places already, but for the flags of the previous key. -/
theorem placed_mergeDraft (hs : t.Sound) (hid : draft.id = c.id) {key : ColumnId}
    (hkey : ∀ d ∈ t.columns, d.id = key → d.id ≠ c.id → d.primaryKey = true) :
    (Session.mergeDraft t draft).map (·.placed t.id (some key)) = t.columns.map fun d =>
      if d.id = c.id then draft.placed t.id (some key) else if d.id = key then d else d.unkeyed := by
  rw [Session.mergeDraft, List.map_map]
  refine List.map_congr_left fun d hd => ?_
  have hfault := hs.faultless d hd
  have hhome := hs.home d hd
  by_cases hc : d.id = c.id
  · rw [Function.comp, if_pos (hc.trans hid.symm), if_pos hc]
  · rw [Function.comp, if_neg (hid ▸ hc), if_neg hc]
    show d.placed t.id (some key) = _
    by_cases hk : d.id = key
    · rw [if_pos hk, Column.placed_key hfault hhome (hkey d hd hk hc) (congrArg some hk)]
    · rw [if_neg hk, Column.placed_other hfault hhome (mt Option.some.inj hk)]

/-- What the table is when the draft is merged into its columns and these are in their places. -/
theorem saves_mergeDraft (hs : t.Sound) (hc : c ∈ t.columns) (hid : draft.id = c.id)
    {key : ColumnId} (hchosen : if draft.primaryKey then key = c.id else t.primaryKey = some key)
    (hkey : ∃ d ∈ t.columns, d.id = key ∧ (d.id ≠ c.id → d.primaryKey = true)) :
    t.Saves
      { t with
        columns := (Session.mergeDraft t (draft.linkedAs c)).map (·.placed t.id (some key))
        primaryKey := some key }
      c draft ((draft.linkedAs c).placed t.id (some key)) key := by
  have hlinks : (Session.mergeDraft t (draft.linkedAs c)).map (·.link) = t.columns.map (·.link) :=
    link_mergeDraft hs hc hid rfl
  have hids : (Session.mergeDraft t (draft.linkedAs c)).map (·.id) = t.columns.map (·.id) :=
    Column.ids_of_links hlinks
  obtain ⟨k, hk, rfl, hflag⟩ := hkey
  refine ⟨hchosen, rfl, ?_, ?_, ?_, ?_, rfl⟩
  · have hsound := Table.sound_placed (t := t) (hids ▸ hs.columnIds)
      (hids ▸ List.mem_map.mpr ⟨k, hk, rfl⟩)
    rcases hsound.key with hnone | ⟨d, hone, hprimary⟩
    · have hempty := (congrArg (List.map Column.link) hnone).symm.trans (List.map_map.trans hlinks)
      exact absurd (List.map_eq_nil_iff.mp hempty.symm) (List.ne_nil_of_mem hc)
    · rw [hone, List.map_singleton, Option.some.inj hprimary]
  · have hkey : (some draft.id = some k.id) = (c.id = k.id) := by
      rw [Option.some.injEq, hid]
    simp only [Column.linkedAs, Column.placed, hkey, hs.home c hc]
  · have hid' : (draft.linkedAs c).id = c.id := hid
    refine placed_mergeDraft hs hid' fun d hd he hne => ?_
    obtain rfl := eq_of_key_eq hs.columnIds hd hk he
    exact hflag hne
  · rw [← hlinks]
    exact List.map_map

/-- A draft that has been saved is what it is when it is saved again. -/
theorem Table.Saves.again {u v : Table} {saved saved' : Column} {key key' : ColumnId}
    (h : t.Saves u c draft saved key) (hid : draft.id = c.id)
    (h' : u.Saves v saved saved saved' key') : v = u ∧ saved' = saved := by
  have hsavedId : saved.id = c.id := by rw [h.normalized, ← hid]; rfl
  have hflag : saved.primaryKey = decide (c.id = key) := by rw [h.normalized]; rfl
  have hkey : key' = key := by
    have hchosen := h'.chosen
    by_cases he : c.id = key
    · rw [hflag, if_pos (decide_eq_true he)] at hchosen
      rw [hchosen, hsavedId, he]
    · rw [hflag, if_neg (by simpa using he), h.keyColumn] at hchosen
      exact (Option.some.inj hchosen).symm
  have hsaved : saved' = saved := by
    have hfault : saved.fault? = none := by
      rw [h.normalized]
      exact Column.fault?_normalize _
    have hflag' : decide (saved.id = key') = saved.primaryKey := by rw [hkey, hsavedId, hflag]
    have hsame : { saved with primaryKey := decide (saved.id = key') } = saved := by rw [hflag']
    exact h'.normalized.trans ((congrArg Column.normalize hsame).trans
      (Column.normalize_eq_self hfault))
  have hcolumns : v.columns = u.columns := by
    rw [h'.columns]
    refine Eq.trans (List.map_congr_left fun d hd => ?_) (List.map_id' _)
    rw [h.columns] at hd
    obtain ⟨old, -, rfl⟩ := List.mem_map.mp hd
    rw [hsavedId, hkey, hsaved]
    by_cases hc : old.id = c.id
    · rw [if_pos hc, if_pos hsavedId]
    · by_cases hk : old.id = key
      · rw [if_neg hc, if_pos hk, if_neg hc, if_pos hk]
      · rw [if_neg hc, if_neg hk, if_neg (show old.unkeyed.id ≠ c.id from hc),
          if_neg (show old.unkeyed.id ≠ key from hk)]
        rfl
  refine ⟨?_, hsaved⟩
  rw [h'.rest, hcolumns, h'.keyColumn, hkey, ← h.keyColumn]

end

namespace Schema

variable {schema next : Schema} {session : Session} {t : Table} {c draft : Column}

/-- Committing a draft replaces the columns of its table, and reads the draft back from these. -/
theorem commitColumn_of_replaceColumns (hopen : session.column = some ⟨t.id, draft⟩)
    (ht : schema.table? t.id = some t) (hc : t.column? draft.id = some c)
    (hr : schema.replaceColumns t.id (Session.mergeDraft t (draft.linkedAs c)) = .ok next)
    {u : Table} (hu : next.table? t.id = some u) {saved : Column}
    (hsaved : u.column? draft.id = some saved) :
    session.commitColumn schema = .ok ({ session with column := some ⟨t.id, saved⟩ }, next) := by
  have hr' : schema.replaceColumns t.id (Session.mergeDraft t
      { draft with foreignKey := c.foreignKey }) = .ok next := hr
  simp only [Session.commitColumn, hopen, requireTable, ht, hc, hr', hu, hsaved, bind, Except.bind,
    pure, Except.pure, Option.bind_some, Option.map_some, Option.some_or]

/-- **A commit of a draft lands**, and what it leaves is valid. -/
theorem commitColumn_saves (hv : schema.Valid) (ht : t ∈ schema.tables) (hc : c ∈ t.columns)
    (hopen : session.column = some ⟨t.id, draft⟩) (hid : draft.id = c.id) :
    ∃ u saved key next, t.Saves u c draft saved key ∧ next.Valid ∧
      next.tables = schema.tables.map (fun x => if x.id = t.id then u else x) ∧
      session.commitColumn schema = .ok ({ session with column := some ⟨t.id, saved⟩ }, next) := by
  have hs := hv.tables t ht
  let given := Session.mergeDraft t (draft.linkedAs c)
  have hid' : (draft.linkedAs c).id = c.id := hid
  obtain ⟨key, hsettles, hchosen, hkey⟩ := settlesOn_mergeDraft hs hc hid'
  let u : Table := { t with columns := given.map (·.placed t.id (some key)), primaryKey := some key }
  have hsaves : t.Saves u c draft ((draft.linkedAs c).placed t.id (some key)) key :=
    saves_mergeDraft hs hc hid hchosen hkey
  have hlinks : given.map (·.link) = t.columns.map (·.link) := link_mergeDraft hs hc hid rfl
  have hn : (schema.regive t given (some key)).Valid := by
    obtain ⟨k, hk, rfl, -⟩ := hkey
    exact valid_regive hv ht hlinks (List.mem_map.mpr ⟨k, hk, rfl⟩)
  have hr := (replaceColumns_iff hv.ids ht).mpr ⟨some key, hsettles, hn, rfl⟩
  -- no join is let go of, so that the other tables keep their mirrors
  have htables : (schema.regive t given (some key)).tables =
      schema.tables.map fun x => if x.id = t.id then u else x := by
    rw [tables_regive hv ht, Table.letsGo_of_kept hlinks]
    refine List.map_congr_left fun x hx => ?_
    by_cases he : x.id = t.id
    · rw [if_pos he, if_pos he, eq_of_key_eq hv.ids hx ht he]
    · rw [if_neg he, if_neg he, List.filter_eq_self.mpr fun _ _ => by simp]
  have hu : u ∈ (schema.regive t given (some key)).tables := by
    rw [htables]
    exact List.mem_map.mpr ⟨t, ht, if_pos rfl⟩
  have hsaved : (draft.linkedAs c).placed t.id (some key) ∈ u.columns := by
    rw [hsaves.columns]
    exact List.mem_map.mpr ⟨c, hc, if_pos rfl⟩
  have hfound : (schema.regive t given (some key)).table? t.id = some u := table?_of_mem hn.ids hu
  have hcolumn : u.column? draft.id = some ((draft.linkedAs c).placed t.id (some key)) :=
    find?_key (hn.tables u hu).columnIds hsaved
  exact ⟨u, _, key, _, hsaves, hn, htables, commitColumn_of_replaceColumns hopen
    (table?_of_mem hv.ids ht) (hid ▸ find?_key hs.columnIds hc) hr hfound hcolumn⟩

/-- **Committing a column lands, and touches what it may.** Its table has the draft in the place of
the column, other tables are what they were, and the draft that is open is the column that was
saved. So committing again changes nothing. -/
theorem commitColumn_lands (hv : schema.validate = .ok ()) (ht : t ∈ schema.tables)
    (hc : c ∈ t.columns) (hopen : session.column = some ⟨t.id, draft⟩) (hid : draft.id = c.id) :
    ∃ u saved key after next, session.commitColumn schema = .ok (after, next) ∧
      t.Saves u c draft saved key ∧
      next.tables = schema.tables.map (fun x => if x.id = t.id then u else x) ∧
      after = { session with column := some ⟨t.id, saved⟩ } ∧
      after.commitColumn next = .ok (after, next) := by
  have hv := validate_iff.mp hv
  obtain ⟨u, saved, key, next, hsaves, hn, htables, hcommit⟩ :=
    commitColumn_saves hv ht hc hopen hid
  have hu : u ∈ next.tables := by
    rw [htables]
    exact List.mem_map.mpr ⟨t, ht, if_pos rfl⟩
  have hsaved : saved ∈ u.columns := by
    rw [hsaves.columns]
    exact List.mem_map.mpr ⟨c, hc, if_pos rfl⟩
  have huid : u.id = t.id := by rw [hsaves.rest]
  have hafter : ({ session with column := some ⟨t.id, saved⟩ } : Session).column =
      some ⟨u.id, saved⟩ := by rw [huid]
  obtain ⟨v, saved', key', next', hagain, -, htables', hcommit'⟩ :=
    commitColumn_saves hn hu hsaved hafter rfl
  obtain ⟨rfl, rfl⟩ := hsaves.again hid hagain
  have hnext : next' = next :=
    congrArg Schema.mk (htables'.trans (map_key_eq_self (f := fun _ => v) hn.ids hu rfl))
  refine ⟨v, saved', key, _, next, hcommit, hsaves, htables, rfl, ?_⟩
  rw [hcommit', hnext, huid]

/-- The slug of posts is to be the key, and a number that counts by itself. The table that the draft
names is not there. -/
def slugAsKey : Column :=
  { Column.plain ⟨"p2"⟩ ⟨"x"⟩ "code" with
    dataType := .number, primaryKey := true, nullable := true, autoIncrement := true }

/-- The slug takes the key over, and comments go on to refer to it. -/
theorem commentsBySlug_committed : commentsBySlug.validate = .ok () ∧
    ∃ posts slug u saved key after next,
      posts ∈ commentsBySlug.tables ∧ slug ∈ posts.columns ∧
      Session.commitColumn ⟨some ⟨posts.id, slugAsKey⟩, none, none⟩ commentsBySlug =
        .ok (after, next) ∧
      posts.Saves u slug slugAsKey saved key ∧ key = ⟨"p2"⟩ ∧
      next.tables = commentsBySlug.tables.map (fun x => if x.id = posts.id then u else x) ∧
      after = ⟨some ⟨posts.id, saved⟩, none, none⟩ ∧
      after.commitColumn next = .ok (after, next) := by
  have hvalidate : commentsBySlug.validate = .ok () := ok_of_toOption (by decide +kernel)
  obtain ⟨posts, hposts, slug, hslug, hid⟩ : ∃ t ∈ commentsBySlug.tables, ∃ c ∈ t.columns,
      c.id = ⟨"p2"⟩ := by decide +kernel
  let session : Session := ⟨some ⟨posts.id, slugAsKey⟩, none, none⟩
  have hopen : session.column = some ⟨posts.id, slugAsKey⟩ := rfl
  obtain ⟨u, saved, key, after, next, hcommit, hsaves, htables, hafter, hagain⟩ :=
    commitColumn_lands hvalidate hposts hslug hopen hid.symm
  have hkey : key = slug.id := hsaves.chosen
  exact ⟨hvalidate, posts, slug, u, saved, key, after, next, hposts, hslug, hcommit, hsaves,
    hkey.trans hid, htables, hafter, hagain⟩

end Schema

end ErModel
