import ErModel.Proofs.JunctionsAtOnce

/-!
# New ids beside those that are kept

A junction table takes its ids from a supply. Any supply will do whose ids are not in use: the ids
of the one become those of the other, and the ids of the schema stay what they are.
-/

namespace ErModel

/-- There is something to put behind texts that makes none of the given ones. -/
theorem exists_padding (kept : List String) : ∃ padding, ∀ text, text ++ padding ++ "-" ∉ kept := by
  induction kept with
  | nil => exact ⟨"", fun _ => List.not_mem_nil⟩
  | cons first rest ih =>
      obtain ⟨padding, hpadding⟩ := ih
      refine ⟨first ++ padding, fun text hmem => ?_⟩
      rw [← String.append_assoc] at hmem
      rcases List.mem_cons.mp hmem with he | hmem
      · have hlength := congrArg String.length he
        have hdash : "-".length = 1 := rfl
        simp only [String.length_append, hdash] at hlength
        omega
      · exact hpadding _ hmem

/-- Texts may be exchanged for others that do not end in a dash, where some texts are kept. -/
theorem exists_exchange {ι : Type} {f g : ι → String} (hf : Function.Injective f)
    (hg : Function.Injective g) (hdash : ∀ i text, g i ≠ text ++ "-") {kept : List String}
    (hfresh : ∀ i, f i ∉ kept) (hfresh' : ∀ i, g i ∉ kept) :
    ∃ exchange : String → String, Function.Injective exchange ∧ (∀ i, exchange (f i) = g i) ∧
      ∀ text ∈ kept, exchange text = text := by
  obtain ⟨padding, hpadding⟩ := exists_padding kept
  let other (text : String) := if text ∈ kept then text else text ++ padding ++ "-"
  have hother : ∀ {text}, text ∈ kept → other text = text := fun h => if_pos h
  have hpadded : ∀ {text}, text ∉ kept → other text = text ++ padding ++ "-" := fun h => if_neg h
  refine ⟨Function.extend f g other, injective_extend hf hg ?_ ?_, hf.extend_apply g other, ?_⟩
  · intro text text' he
    by_cases h : text ∈ kept <;> by_cases h' : text' ∈ kept
    · rwa [hother h, hother h'] at he
    · rw [hother h, hpadded h'] at he
      exact absurd (he ▸ h) (hpadding text')
    · rw [hpadded h, hother h'] at he
      exact absurd (he ▸ h') (hpadding text)
    · rw [hpadded h, hpadded h'] at he
      exact (String.append_left_inj padding).mp ((String.append_left_inj "-").mp he)
  · intro i text he
    by_cases h : text ∈ kept
    · exact hfresh' i (he.trans (hother h) ▸ h)
    · exact hdash i _ (he.trans (hpadded h))
  · intro text h
    have hnone : ¬ ∃ i, f i = text := fun ⟨i, hi⟩ => hfresh i (hi ▸ h)
    rw [Function.extend_apply' _ _ _ hnone, hother h]

namespace Relabelling

/-- New ids that leave those of a schema as they are. -/
structure Keeps (names : Relabelling) (schema : Schema) : Prop where
  table : ∀ t ∈ schema.tables, names.table t.id = t.id
  column : ∀ t ∈ schema.tables, ∀ c ∈ t.columns, names.column c.id = c.id
  join : ∀ o ∈ schema.owningJoins, names.join o.join.id = o.join.id

/-- One new id after another. -/
def followedBy (names names' : Relabelling) : Relabelling :=
  ⟨names'.table ∘ names.table, names'.column ∘ names.column, names'.join ∘ names.join⟩

variable {names names' : Relabelling} {schema : Schema}

theorem record_followedBy (names names' : Relabelling) (join : Join) :
    (names.followedBy names').record join = names'.record (names.record join) := by
  have htarget : (names.followedBy names').onTarget = names'.onTarget ∘ names.onTarget := by
    refine funext fun target => ?_
    rw [Function.comp_apply, onTarget, onTarget, onTarget, Option.map_map]
    rfl
  have htargets : join.target.map (names.followedBy names').onTarget =
      (join.target.map names.onTarget).map names'.onTarget := by
    rw [htarget, Option.map_map]
  exact congrArg (fun target => { (names'.record (names.record join)) with target := target })
    htargets

theorem apply_followedBy (names names' : Relabelling) (schema : Schema) :
    (names.followedBy names').apply schema = names'.apply (names.apply schema) := by
  have hrecord : (names.followedBy names').record = names'.record ∘ names.record :=
    funext fun join => record_followedBy names names' join
  refine congrArg Schema.mk ?_
  rw [apply, Schema.mapTables, List.map_map]
  refine List.map_congr_left fun t _ => ?_
  rw [Function.comp_apply, onTable, onTable, onTable, hrecord]
  simp only [List.map_map, Option.map_map]
  congr 1
  refine List.map_congr_left fun c _ => ?_
  rw [Function.comp_apply, onColumn, onColumn, onColumn, hrecord, Option.map_map]
  rfl

/-- Ids of joins follow those of the tables twice if they do so once and then again. -/
theorem Relabels.followedBy {next : Schema} (h : names.Relabels schema) (h' : names'.Relabels next)
    (hv : schema.Valid) (hcontent : (names.apply schema).content = next.content) :
    (names.followedBy names').Relabels schema where
  tables := h'.tables.comp h.tables
  columns := h'.columns.comp h.columns
  joins := h'.joins.comp h.joins
  follows := by
    intro o ho
    obtain ⟨n, hnumber, hfirst⟩ := h.follows o ho
    have howner : names.beside (o.holder.id, o.join) ∈ next.owners := by
      refine (Schema.owners_perm hcontent).subset ?_
      rw [Schema.owners_relabel hv fun _ _ _ _ he => h.tables he, Schema.owners_eq, List.map_map]
      exact List.mem_map.mpr ⟨o, ho, rfl⟩
    obtain ⟨other, hother, he⟩ := Schema.exists_owned howner
    obtain ⟨k, hagain, hsecond⟩ := h'.follows other hother
    rw [show other.join = names.record o.join from congrArg Prod.snd he] at hagain hsecond
    refine ⟨n, hnumber, ?_⟩
    rw [record_followedBy, hfirst.unique hagain]
    exact hsecond

section

variable (h : names.Keeps schema) (hv : schema.Valid)

include h

theorem Keeps.onTarget {target : JoinTarget} {peer : Table}
    (hpeer : schema.table? target.table = some peer)
    (hcolumn : ∀ c, target.column = some c → (peer.column? c).isSome = true) :
    names.onTarget target = target := by
  obtain ⟨hmem, hid⟩ := Schema.mem_of_table? hpeer
  have htable : names.table target.table = target.table := by
    rw [← hid]
    exact h.table peer hmem
  have hcolumns : target.column.map names.column = target.column := by
    cases hc : target.column with
    | none => rfl
    | some c =>
        obtain ⟨found, hfound⟩ := Option.isSome_iff_exists.mp (hcolumn c hc)
        obtain rfl : found.id = c := by simpa using List.find?_some hfound
        exact congrArg some (h.column peer hmem found (List.mem_of_find?_eq_some hfound))
  rw [Relabelling.onTarget, htable, hcolumns]

include hv

theorem Keeps.owned {owned : OwnedJoin} (ho : owned ∈ schema.owningJoins) :
    names.record owned.join = owned.join := by
  have hsound := hv.owners owned ho
  have hsource : names.table owned.join.source = owned.join.source := by
    rw [hsound.source]
    exact h.table _ (Schema.mem_owningJoins ho).1
  have htarget : owned.join.target.map names.onTarget = owned.join.target := by
    cases ht : owned.join.target with
    | none => rfl
    | some target =>
        obtain ⟨peer, hpeer, hcolumn⟩ := hsound.target target ht
        exact congrArg some (h.onTarget hpeer hcolumn)
  rw [record, h.join _ ho, hsource]
  exact congrArg (fun target => { owned.join with target := target }) htarget

theorem Keeps.onColumn {t : Table} (ht : t ∈ schema.tables) {c : Column} (hc : c ∈ t.columns) :
    names.onColumn c = c := by
  have hforeign : c.foreignKey.map names.record = c.foreignKey := by
    cases hf : c.foreignKey with
    | none => rfl
    | some join => exact congrArg some (h.owned hv (Schema.mem_owningJoins_of_column ht hc hf))
  have hhome := (hv.tables t ht).home c hc
  rw [Relabelling.onColumn, hhome, h.table t ht, h.column t ht c hc, hforeign, ← hhome]

variable (hp : schema.MirrorsPlaced)
  (hkeyless : ∀ t ∈ schema.tables, t.columns = [] → t.primaryKey = none)

include hp hkeyless

theorem Keeps.onTable {t : Table} (ht : t ∈ schema.tables) : names.onTable t = t := by
  have hkey : t.primaryKey.map names.column = t.primaryKey := by
    rcases (hv.tables t ht).key with hnone | ⟨key, hkey, hprimary⟩
    · rw [hkeyless t ht hnone]
      rfl
    · have hmem := (List.mem_filter.mp (hkey ▸ List.mem_singleton_self key)).1
      rw [hprimary]
      exact congrArg some (h.column t ht key hmem)
  have hcolumns : t.columns.map names.onColumn = t.columns :=
    (List.map_congr_left fun c hc => h.onColumn hv ht hc).trans (List.map_id _)
  have hjoins : t.joins.map names.record = t.joins := by
    refine (List.map_congr_left fun join hj => ?_).trans (List.map_id _)
    by_cases hs : join.source = t.id
    · exact h.owned hv (Schema.mem_owningJoins_of_pending ht hj hs)
    · have hmirror : (t.id, join) ∈ schema.mirrorRecords :=
        Schema.mem_mirrorRecords.mpr ⟨t, ht, rfl, List.mem_filter.mpr ⟨hj, by simpa using hs⟩⟩
      obtain ⟨o, ho, hwanted⟩ := List.mem_filterMap.mp (hp.mirrors.mem_iff.mp hmirror)
      obtain rfl : o.2.mirror = join := (wantedMirror?_eq_some hwanted).symm
      obtain ⟨owned, howned, rfl⟩ := Schema.exists_owned ho
      exact congrArg Join.mirror (h.owned hv howned)
  rw [Relabelling.onTable, h.table t ht, hkey, hcolumns, hjoins]

/-- New ids that leave those of a schema as they are leave the schema as it is. -/
theorem Keeps.apply : names.apply schema = schema :=
  congrArg Schema.mk
    ((List.map_congr_left fun _ ht => h.onTable hv hp hkeyless ht).trans (List.map_id _))

end

/-! ## One supply for another -/

/-- New ids that leave those of a schema as they are, where the ids of one supply become those of
another, and with them the joins of a table that gets the first id. -/
structure Exchanges (names : Relabelling) (schema : Schema) (ids ids' : IdSupply) : Prop where
  keeps : names.Keeps schema
  tableId : ∀ k, names.table (ids.tableId k) = ids'.tableId k
  columnId : ∀ k, names.column (ids.columnId k) = ids'.columnId k
  joinId : ∀ t ∈ schema.tables, ∀ m,
    names.join (.nth (ids.tableId 0) t.id m) = .nth (ids'.tableId 0) t.id m
  tables : Function.Injective names.table
  columns : Function.Injective names.column
  joins : Function.Injective names.join

variable {ids ids' base : IdSupply}

/-- Two supplies may be exchanged where neither is in use. -/
theorem exists_exchanges (hunused : ids.UnusedIn schema) (hunused' : ids'.UnusedIn schema)
    (hbase : ∀ t ∈ schema.tables, ∃ k, t.id = base.tableId k) :
    ∃ names : Relabelling, names.Exchanges schema ids ids' := by
  obtain ⟨text, htext, htexts, hkept⟩ := exists_exchange ids.text_injective ids'.text_injective
    ids'.text_ne_append hunused.texts hunused'.texts
  have hnth : ∀ source : TableId, Function.Injective fun p : Nat × Nat =>
      (JoinId.nth source (base.tableId p.1) p.2).text := by
    intro source p q he
    obtain ⟨hk, hm⟩ := JoinId.nth_target_inj (congrArg JoinId.mk he)
    exact Prod.ext hk hm
  have hfree : ∀ {ids : IdSupply}, ids.UnusedIn schema → ∀ p : Nat × Nat,
      (JoinId.nth (ids.tableId 0) (base.tableId p.1) p.2).text ∉
        schema.owningJoins.map (·.join.id.text) := by
    intro ids hunused p hmem
    obtain ⟨o, ho, he⟩ := List.mem_map.mp hmem
    exact hunused.joins o ho _ _ (congrArg JoinId.mk he)
  obtain ⟨join, hjoin, hjoins, hkeptJoins⟩ := exists_exchange (hnth (ids.tableId 0))
    (hnth (ids'.tableId 0)) (fun p => JoinId.nth_ne_append _ base p.1 p.2) (hfree hunused)
    (hfree hunused')
  have htextMem : ∀ t ∈ schema.tables, ∀ id ∈ t.idTexts, id ∈ schema.collect Table.idTexts :=
    fun t ht id hid => List.mem_flatMap.mpr ⟨t, ht, hid⟩
  refine ⟨⟨fun t => ⟨text t.text⟩, fun c => ⟨text c.text⟩, fun j => ⟨join j.text⟩⟩,
    ⟨fun t ht => ?_, fun t ht c hc => ?_, fun o ho => ?_⟩, ?_, ?_, ?_, ?_, ?_, ?_⟩
  · exact congrArg TableId.mk (hkept _ (htextMem t ht _ List.mem_cons_self))
  · exact congrArg ColumnId.mk (hkept _ (htextMem t ht _
      (List.mem_cons_of_mem _ (List.mem_map.mpr ⟨c, hc, rfl⟩))))
  · exact congrArg JoinId.mk (hkeptJoins _ (List.mem_map.mpr ⟨o, ho, rfl⟩))
  · exact fun k => congrArg TableId.mk (htexts k)
  · exact fun k => congrArg ColumnId.mk (htexts k)
  · intro t ht m
    obtain ⟨k, hk⟩ := hbase t ht
    rw [hk]
    exact congrArg JoinId.mk (hjoins (k, m))
  · exact fun t u he => congrArg TableId.mk (htext (TableId.mk.inj he))
  · exact fun c d he => congrArg ColumnId.mk (htext (ColumnId.mk.inj he))
  · exact fun i j he => congrArg JoinId.mk (hjoin (JoinId.mk.inj he))

/-- A join from a junction table to one that is there follows the two tables. -/
theorem Exchanges.isNth (h : names.Exchanges schema ids ids') {t : Table} (ht : t ∈ schema.tables)
    {join : Join} {m : Nat} (hsource : join.source = ids.tableId 0)
    (htarget : ∃ key, join.target = some ⟨t.id, some key⟩)
    (hid : join.id = .nth (ids.tableId 0) t.id m) :
    ∃ n, join.IsNth n ∧ (names.record join).IsNth n := by
  obtain ⟨key, htarget⟩ := htarget
  refine ⟨m, ⟨_, htarget, hsource.symm ▸ hid⟩, _, congrArg (Option.map _) htarget, ?_⟩
  show names.join join.id = .nth (names.table join.source) (names.table t.id) m
  rw [hid, hsource, h.joinId t ht, h.tableId, h.keeps.table t ht]

/-- The joins of a junction table follow when its ids come from another supply, and the others are what
they were. -/
theorem Exchanges.relabels (h : names.Exchanges schema ids ids') (hv : schema.Valid)
    (hn : ∀ o ∈ schema.owners, ∃ n, o.2.IsNth n) (hfresh : ids.FreshFor schema)
    {config : JoinConfig} {a b : Table} (ha : a ∈ schema.tables) (hb : b ∈ schema.tables)
    {aKey bKey : Column} :
    names.Relabels
      (schema.withJunctions [] [Schema.junctionBetween ids config a b aKey bKey]) where
  tables := h.tables
  columns := h.columns
  joins := h.joins
  follows := by
    intro o ho
    have hlinks := Schema.links_junctionBetween ids config a b aKey bKey
    generalize Schema.junctionBetween ids config a b aKey bKey = made at hlinks ho
    have hnew : ∀ m ∈ [made], ∀ side ∈ sideMirrors m, ∀ t ∈ schema.tables,
        side.2.source ≠ t.id := by
      rw [List.forall_mem_singleton]
      intro side hside t ht
      rw [hlinks.source_of_sideMirrors hside, hlinks.id]
      exact hfresh.tableId_ne 0 ht
    have howner : (o.holder.id, o.join) ∈ (schema.withJunctions [] [made]).owners :=
      Schema.owners_eq _ ▸ List.mem_map.mpr ⟨o, ho, rfl⟩
    rcases Schema.mem_owners_withJunctions hnew howner with hold | ⟨m, hm, -, hown⟩
    · obtain ⟨n, hnumber⟩ := hn _ hold
      obtain ⟨old, hmem, he⟩ := Schema.exists_owned hold
      refine ⟨n, hnumber, ?_⟩
      rw [← show old.join = o.join from congrArg Prod.snd he] at hnumber ⊢
      rw [h.keeps.owned hv hmem]
      exact hnumber
    · obtain rfl := List.mem_singleton.mp hm
      have hown : o.join ∈ [m.2.1, m.2.2] := hlinks.owners ▸ hown
      rcases List.mem_pair.mp hown with he | he
      · rw [he]
        exact h.isNth ha (hlinks.sourceA.trans hlinks.id) hlinks.targetA (hlinks.id ▸ hlinks.idA)
      · rw [he]
        exact h.isNth hb (hlinks.sourceB.trans hlinks.id) hlinks.targetB (hlinks.id ▸ hlinks.idB)

/-- **A junction table is the same under the ids of another supply**, with the schema around it. -/
theorem Exchanges.withJunction (h : names.Exchanges schema ids ids') (hv : schema.Valid)
    (hp : schema.MirrorsPlaced)
    (hkeyless : ∀ t ∈ schema.tables, t.columns = [] → t.primaryKey = none) {config : JoinConfig}
    (hconfig : names.onTarget config.target = config.target) {a b : Table}
    (ha : a ∈ schema.bareTables) (hb : b ∈ schema.bareTables) {aKey bKey : Column}
    (haKey : aKey ∈ a.columns) (hbKey : bKey ∈ b.columns) :
    names.apply (schema.withJunctions [] [Schema.junctionBetween ids config a b aKey bKey]) =
      schema.withJunctions [] [Schema.junctionBetween ids' config a b aKey bKey] := by
  have hbare : ∀ {t}, t ∈ schema.bareTables → names.onTable t = t ∧
      (∀ c ∈ t.columns, names.onColumn c = c) ∧
      ∀ m, names.join (.nth (ids.tableId 0) t.id m) = .nth (ids'.tableId 0) (names.table t.id) m := by
    intro t ht
    obtain ⟨u, hu, rfl⟩ := List.mem_map.mp ht
    refine ⟨?_, fun c hc => h.keeps.onColumn hv hu hc, fun m => ?_⟩
    · exact congrArg Table.withoutJoins (h.keeps.onTable hv hp hkeyless hu)
    · rw [show names.table u.withoutJoins.id = u.id from h.keeps.table u hu]
      exact h.joinId u hu m
  have hmade := junctionBetween_renamed h.tables (h.tableId 0) (fun k _ => h.columnId k)
    (List.forall_mem_cons.mpr ⟨(hbare ha).2.2, List.forall_mem_singleton.mpr (hbare hb).2.2⟩)
    config aKey bKey
  have hchoices : names.onConfig config = config := by
    rw [onConfig, hconfig]
  rw [(hbare ha).1, (hbare hb).1, (hbare ha).2.1 aKey haKey, (hbare hb).2.1 bKey hbKey,
    hchoices] at hmade
  rw [apply_withJunctions h.tables h.joins, h.keeps.apply hv hp hkeyless, hmade]
  rfl

end Relabelling

end ErModel
