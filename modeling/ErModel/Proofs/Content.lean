import ErModel.Proofs.Rebuilding
import ErModel.Proofs.Relabel
import Mathlib.Data.Multiset.Defs

/-!
# Schemas without their order

The order of tables, and of the records among the joins of a table, is an accident of how a schema
came about. What is left without it is the content of the schema. Edits look tables up by id or by
name and joins by id, so what a schema is good for depends on its content alone: with one schema all
schemas of the same content are valid, and they have the same records of joins in some order.
-/

namespace ErModel

/-- Where elements of one key contribute the same but for its order, so do lists of equal keys. -/
theorem perm_flatMap_of_keys {α β γ : Type} {key : α → γ} {f : α → List β}
    (hf : ∀ x y, key x = key y → (f x).Perm (f y)) {xs ys : List α}
    (h : (xs.map key).Perm (ys.map key)) : (xs.flatMap f).Perm (ys.flatMap f) := by
  induction xs generalizing ys with
  | nil =>
      rw [List.map_nil, List.nil_perm, List.map_eq_nil_iff] at h
      rw [h]
  | cons x rest ih =>
      -- a partner of the first element is somewhere in the other list
      obtain ⟨y, hy, hkey⟩ := List.mem_map.mp
        (h.subset (List.mem_map.mpr ⟨x, List.mem_cons_self, rfl⟩))
      obtain ⟨before, behind, rfl⟩ := List.append_of_mem hy
      have hfront : (before ++ y :: behind).Perm (y :: (before ++ behind)) := List.perm_middle
      have hrest : (rest.map key).Perm ((before ++ behind).map key) := by
        have h := h.trans (hfront.map key)
        rw [List.map_cons, List.map_cons, hkey] at h
        exact h.cons_inv
      refine List.Perm.trans ?_ (hfront.flatMap_right f).symm
      rw [List.flatMap_cons, List.flatMap_cons]
      exact (hf x y hkey.symm).append (ih hrest)

/-- A table without the order of its records of joins. -/
def Table.content (table : Table) : Table × Multiset Join := (table.withoutJoins, table.joins)

theorem Table.content_eq_iff {t u : Table} :
    t.content = u.content ↔ t.withoutJoins = u.withoutJoins ∧ t.joins.Perm u.joins := by
  rw [content, content, Prod.mk.injEq, Multiset.coe_eq_coe]

namespace Schema

/-- A schema without the order of its tables and of their records of joins. -/
def content (schema : Schema) : Multiset (Table × Multiset Join) := schema.tables.map Table.content

variable {schema next : Schema}

theorem content_eq_iff : schema.content = next.content ↔
    (schema.tables.map Table.content).Perm (next.tables.map Table.content) := Multiset.coe_eq_coe

/-- Tables that come in another order are the same content. -/
theorem content_of_perm {tables tables' : List Table} (h : tables.Perm tables') :
    content ⟨tables⟩ = content ⟨tables'⟩ := content_eq_iff.mpr (h.map _)

theorem mem_of_content (h : schema.content = next.content) {t : Table} (ht : t ∈ schema.tables) :
    ∃ u ∈ next.tables, u.content = t.content :=
  List.mem_map.mp ((content_eq_iff.mp h).subset (List.mem_map.mpr ⟨t, ht, rfl⟩))

/-- What tables contribute to a list is the same but for its order. -/
theorem collect_perm {α : Type} {f : Table → List α}
    (hf : ∀ t u, t.content = u.content → (f t).Perm (f u)) (h : schema.content = next.content) :
    (schema.collect f).Perm (next.collect f) :=
  perm_flatMap_of_keys hf (content_eq_iff.mp h)

/-- A change of all tables that does not look at their order. -/
theorem content_mapTables {f : Table → Table}
    (hf : ∀ t u, t.content = u.content → (f t).content = (f u).content)
    (h : schema.content = next.content) :
    (schema.mapTables f).content = (next.mapTables f).content := by
  refine content_eq_iff.mpr ?_
  rw [mapTables, mapTables, List.map_map, List.map_map, List.map_eq_flatMap, List.map_eq_flatMap]
  exact collect_perm (fun t u he => .of_eq (congrArg (fun c => [c]) (hf t u he))) h

end Schema

/-- Tables of one content have new ids of one content. -/
theorem Relabelling.content_onTable (names : Relabelling) {t u : Table}
    (h : t.content = u.content) :
    (names.onTable t).content = (names.onTable u).content := by
  obtain ⟨htable, hjoins⟩ := Table.content_eq_iff.mp h
  exact Table.content_eq_iff.mpr ⟨congrArg names.onTable htable, hjoins.map names.record⟩

namespace Schema

variable {schema next : Schema}

theorem content_apply (names : Relabelling) (h : schema.content = next.content) :
    (names.apply schema).content = (names.apply next).content :=
  content_mapTables (fun _ _ => names.content_onTable) h

/-! ## Records that are put into tables -/

/-- The schema with further records among the joins of its tables. -/
def holding (schema : Schema) (records : List (TableId × Join)) : Schema :=
  schema.mapTables fun t => { t with joins := t.joins ++ (records.filter (·.1 = t.id)).map (·.2) }

/-- Records that are put into their tables one by one are there all at once. -/
theorem foldl_addJoin (hids : (schema.tables.map (·.id)).Nodup) (records : List (TableId × Join)) :
    records.foldl (fun s m => s.modifyTable m.1 (·.addJoin m.2)) schema =
      schema.holding records := by
  induction records generalizing schema with
  | nil =>
      refine congrArg Schema.mk ((List.map_congr_left fun t _ => ?_).trans (List.map_id _)).symm
      rw [List.filter_nil, List.map_nil, List.append_nil, id_eq]
  | cons m rest ih =>
      have hsame : (schema.modifyTable m.1 (·.addJoin m.2)).tables.map (·.id) =
          schema.tables.map (·.id) := ids_modifyTable fun _ => rfl
      rw [List.foldl_cons, ih (hsame ▸ hids), holding, holding, modifyTable,
        modifyFirst_eq_map hids, mapTables, mapTables, List.map_map]
      refine congrArg Schema.mk (List.map_congr_left fun t _ => ?_)
      rw [Function.comp_apply]
      by_cases he : t.id = m.1
      · rw [if_pos he, List.filter_cons_of_pos (by simp [he]), List.map_cons]
        simp only [Table.addJoin, List.append_assoc, List.singleton_append]
        rfl
      · rw [if_neg he, List.filter_cons_of_neg (by simpa using Ne.symm he)]

/-- Records may be put into tables in any order. -/
theorem content_holding {records records' : List (TableId × Join)} (hperm : records.Perm records')
    (h : schema.content = next.content) :
    (schema.holding records).content = (next.holding records').content := by
  refine (content_mapTables (fun t u he => ?_) h).trans (content_eq_iff.mpr (.of_eq ?_))
  · obtain ⟨htable, hjoins⟩ := Table.content_eq_iff.mp he
    refine Table.content_eq_iff.mpr ⟨htable, ?_⟩
    show (t.joins ++ _).Perm (u.joins ++ _)
    rw [Table.id_of_withoutJoins htable]
    exact hjoins.append_right _
  · rw [holding, mapTables, mapTables, List.map_map, List.map_map]
    refine List.map_congr_left fun t _ => ?_
    exact Table.content_eq_iff.mpr ⟨rfl, ((hperm.filter _).map _).append_left _⟩

/-! ## Records and look-ups -/

theorem ids_perm (h : schema.content = next.content) :
    (schema.tables.map (·.id)).Perm (next.tables.map (·.id)) := by
  have := (content_eq_iff.mp h).map fun c => c.1.id
  rwa [List.map_map, List.map_map] at this

theorem names_perm (h : schema.content = next.content) :
    (schema.tables.map (·.name)).Perm (next.tables.map (·.name)) := by
  have := (content_eq_iff.mp h).map fun c => c.1.name
  rwa [List.map_map, List.map_map] at this

theorem owners_perm (h : schema.content = next.content) : schema.owners.Perm next.owners := by
  refine collect_perm (fun t u he => ?_) h
  obtain ⟨htable, hjoins⟩ := Table.content_eq_iff.mp he
  rw [Table.owners, Table.owners, Table.pendingJoins, Table.pendingJoins,
    Table.columns_of_withoutJoins htable, Table.id_of_withoutJoins htable]
  exact ((hjoins.filter _).append_left _).map _

theorem mirrorRecords_perm (h : schema.content = next.content) :
    schema.mirrorRecords.Perm next.mirrorRecords := by
  refine collect_perm (fun t u he => ?_) h
  obtain ⟨htable, hjoins⟩ := Table.content_eq_iff.mp he
  rw [Table.mirrors, Table.mirrors, Table.id_of_withoutJoins htable]
  exact (hjoins.filter _).map _

theorem seats_perm (h : schema.content = next.content) : schema.seats.Perm next.seats := by
  refine collect_perm (fun t u he => ?_) h
  obtain ⟨htable, hjoins⟩ := Table.content_eq_iff.mp he
  rw [Table.seats, Table.seats, Table.pendingJoins, Table.pendingJoins,
    Table.columns_of_withoutJoins htable, Table.id_of_withoutJoins htable]
  exact ((hjoins.filter _).map _).append_left _

theorem placed_of_content (hp : schema.MirrorsPlaced) (h : schema.content = next.content) :
    next.MirrorsPlaced := hp.perm (owners_perm h).symm (mirrorRecords_perm h).symm

/-- The table with an id has the same content. -/
theorem table?_of_content (hids : (schema.tables.map (·.id)).Nodup)
    (h : schema.content = next.content) {id : TableId} {t : Table}
    (ht : schema.table? id = some t) :
    ∃ u, next.table? id = some u ∧ u.content = t.content := by
  obtain ⟨hmem, rfl⟩ := mem_of_table? ht
  obtain ⟨u, hu, he⟩ := mem_of_content h hmem
  refine ⟨u, ?_, he⟩
  rw [← Table.id_of_withoutJoins (Table.content_eq_iff.mp he).1]
  exact table?_of_mem ((ids_perm h).nodup_iff.mp hids) hu

theorem hasTarget_of_content (hids : (schema.tables.map (·.id)).Nodup)
    (h : schema.content = next.content) {join : Join} (ht : schema.HasTarget join) :
    next.HasTarget join := by
  intro target htarget
  obtain ⟨peer, hpeer, hcolumn⟩ := ht target htarget
  obtain ⟨u, hu, he⟩ := table?_of_content hids h hpeer
  refine ⟨u, hu, fun column hc => ?_⟩
  rw [Table.column?, Table.columns_of_withoutJoins (Table.content_eq_iff.mp he).1]
  exact hcolumn column hc

/-- **Whether a schema is valid can be told from its content.** -/
theorem valid_of_content (hv : schema.Valid) (h : schema.content = next.content) : next.Valid := by
  have hall : ∀ records : List (TableId × Join), records.filter (·.2.id ∉ []) = records :=
    fun records => List.filter_eq_self.mpr fun _ _ => by simp
  have hrebuilt : schema.Rebuilt next [] [] [] := by
    refine ⟨(ids_perm h).nodup_iff.mp hv.ids, (names_perm h).nodup_iff.mp hv.names, ?_, ?_, ?_,
      List.nodup_nil, by simp, by simp, by simp, List.nodup_nil, by simp⟩
    · rw [List.nil_append, hall]
      exact (owners_perm h).symm
    · rw [List.nil_append, hall]
      exact (mirrorRecords_perm h).symm
    · exact fun s hs => Or.inl ((seats_perm h).mem_iff.mpr hs)
  refine (hrebuilt.valid_iff hv).mpr ⟨fun u hu => ?_, fun o ho => ?_⟩
  · obtain ⟨t, ht, he⟩ := mem_of_content h.symm hu
    exact (hv.tables t ht).of_withoutJoins (Table.content_eq_iff.mp he).1
  · obtain ⟨owned, howned, rfl⟩ := exists_owned ((owners_perm h).mem_iff.mpr ho)
    exact hasTarget_of_content hv.ids h (hv.owners owned howned).target

end Schema

end ErModel
