import ErModel.Proofs.Placement
import ErModel.Reconcile

/-!
# Pending joins that are put back

A pending join is put back by declaring it again, so what is known of declared joins is known of it:
the schema stays valid and its mirrors in their places. Since the pending joins of a schema have ids
of their own, none of them is in the way of another, and which of them come back can be said
beforehand.
-/

namespace ErModel

namespace Schema

theorem pendingJoins_eq (schema : Schema) :
    schema.pendingJoins = schema.collect Table.pendingJoins := by
  rw [pendingJoins, owningJoins, collect, List.filter_flatMap, List.map_flatMap]
  refine congrArg (List.flatMap · schema.tables) (funext fun t => ?_)
  have hcolumns : (t.columns.filterMap fun c => c.foreignKey.map fun join =>
      (⟨t, some c, join⟩ : OwnedJoin)).filter (fun owned => !owned.isConfigured) = [] := by
    refine List.filter_eq_nil_iff.mpr fun o ho => ?_
    obtain ⟨c, -, hc⟩ := List.mem_filterMap.mp ho
    obtain ⟨join, -, rfl⟩ := Option.map_eq_some_iff.mp hc
    simp [OwnedJoin.isConfigured]
  have hpending : (t.pendingJoins.map fun join => (⟨t, none, join⟩ : OwnedJoin)).filter
      (fun owned => !owned.isConfigured) = t.pendingJoins.map fun join => ⟨t, none, join⟩ := by
    refine List.filter_eq_self.mpr fun o ho => ?_
    obtain ⟨join, -, rfl⟩ := List.mem_map.mp ho
    rfl
  rw [Table.ownedJoins, List.filter_append, hcolumns, hpending, List.nil_append, List.map_map]
  exact List.map_id _

theorem mem_pendingJoins {schema : Schema} {join : Join} :
    join ∈ schema.pendingJoins ↔ ∃ t, ⟨t, none, join⟩ ∈ schema.owningJoins := by
  rw [pendingJoins, List.mem_map]
  constructor
  · rintro ⟨owned, hmem, rfl⟩
    obtain ⟨howned, hpending⟩ := List.mem_filter.mp hmem
    have hnone : owned.column = none := by simpa [OwnedJoin.isConfigured] using hpending
    exact ⟨owned.holder, hnone ▸ howned⟩
  · rintro ⟨t, ht⟩
    exact ⟨_, List.mem_filter.mpr ⟨ht, rfl⟩, rfl⟩

/-! ## Declaring a join -/

theorem sameTables_addMirror (schema : Schema) (join : Join) :
    (schema.addMirror join).SameTables schema := by
  unfold addMirror
  split
  · exact .refl schema
  · split
    · exact .refl schema
    · exact sameTables_addJoin ..

theorem sameTables_declare (schema : Schema) (join : Join) :
    (schema.declare join).SameTables schema :=
  (sameTables_addJoin ..).trans (sameTables_addMirror schema join)

section

variable {schema : Schema} {join : Join} {target : JoinTarget}

theorem ownerSound_declare (hv : schema.Valid) (ht : join.target = some target)
    (hs : (schema.table? join.source).isSome = true) (hpeer : schema.HasTarget join)
    {o : OwnedJoin} (ho : o ∈ (schema.declare join).owningJoins) :
    (schema.declare join).OwnerSound o := by
  have htables := sameTables_declare schema join
  have hfits : o.isConfigured = true → o.join.fitsForeignKey = true := by
    intro hconfigured
    obtain ⟨htm, ⟨c, hc, hcolumn, hf⟩ | ⟨hnone, -⟩⟩ := mem_owningJoins ho
    · -- columns are what they were
      obtain ⟨u, hu, he⟩ := htables.mem htm
      rw [← Table.columns_of_withoutJoins he] at hc
      exact (hv.owners _ (mem_owningJoins_of_column hu hc hf)).fits rfl
    · rw [OwnedJoin.isConfigured, hnone] at hconfigured
      cases hconfigured
  have hmem : (o.holder.id, o.join) ∈ (schema.declare join).owners :=
    owners_eq _ ▸ List.mem_map.mpr ⟨o, ho, rfl⟩
  rcases List.mem_cons.mp ((owners_declare ht hs).mem_iff.mp hmem) with he | hold
  · obtain ⟨hid, hjoin⟩ := Prod.mk.inj he
    exact ⟨by rw [hjoin, hid], hjoin ▸ htables.hasTarget hpeer, hfits⟩
  · obtain ⟨old, holdMem, he⟩ := List.mem_map.mp (owners_eq schema ▸ hold)
    obtain ⟨hid, hjoin⟩ := Prod.mk.inj he
    have hs := hv.owners old holdMem
    exact ⟨by rw [← hid, ← hs.source, hjoin], htables.hasTarget (hjoin ▸ hs.target), hfits⟩

/-- A mirror is that of the declared join, or it was there and agrees with the record that it agreed
with. -/
theorem mirrorsOneOf_declare (hv : schema.Valid) (ht : join.target = some target)
    (hs : (schema.table? join.source).isSome = true)
    (hp : (schema.table? target.table).isSome = true) {m : Table × Join}
    (hm : m ∈ (schema.declare join).allMirrors) :
    m.2.MirrorsOneOf ((schema.declare join).owningJoins.map (·.join)) := by
  have howner : ∀ record ∈ (join.source, join) :: schema.owners,
      record.2 ∈ (schema.declare join).owningJoins.map (·.join) := by
    intro record hr
    obtain ⟨o, ho, he⟩ := List.mem_map.mp (owners_eq _ ▸ (owners_declare ht hs).mem_iff.mpr hr)
    exact List.mem_map.mpr ⟨o, ho, congrArg (·.2) he⟩
  have hmem : (m.1.id, m.2) ∈ (schema.declare join).mirrorRecords :=
    mirrorRecords_eq _ ▸ List.mem_map.mpr ⟨m, hm, rfl⟩
  rcases List.mem_append.mp ((mirrorRecords_declare ht hp).mem_iff.mp hmem) with hnew | hold
  · have hmirror : m.2 = join.mirror := wantedMirror?_eq_some (Option.mem_toList.mp hnew)
    rw [hmirror]
    exact ⟨join, howner _ List.mem_cons_self, rfl, rfl, join.agreesWith_mirror⟩
  · obtain ⟨old, hmem, he⟩ := List.mem_map.mp (mirrorRecords_eq schema ▸ hold)
    obtain ⟨_, howned, hagrees⟩ := hv.mirrors old hmem
    obtain ⟨o, ho, rfl⟩ := List.mem_map.mp howned
    rw [← (Prod.mk.inj he).2]
    refine ⟨o.join, howner (o.holder.id, o.join) (List.mem_cons_of_mem _ ?_), hagrees⟩
    exact owners_eq schema ▸ List.mem_map.mpr ⟨o, ho, rfl⟩

/-- **A schema with one more pending join is valid.** -/
theorem valid_declare (hv : schema.Valid) (hnew : schema.containsJoin join.id = false)
    (ht : join.target = some target) (hs : (schema.table? join.source).isSome = true)
    (hpeer : schema.HasTarget join) : (schema.declare join).Valid := by
  have htables := sameTables_declare schema join
  have hp : (schema.table? target.table).isSome = true := by
    obtain ⟨peer, hfound, -⟩ := hpeer target ht
    rw [hfound]
    rfl
  have hfree : join.id ∉ schema.owners.map (·.2.id) := by
    rw [← containsJoin_iff, hnew]
    simp
  refine ⟨?_, ?_, ?_, ?_, ?_, ?_, ?_⟩
  · exact htables.ids ▸ hv.ids
  · exact htables.names ▸ hv.names
  · intro t htm
    obtain ⟨u, hu, he⟩ := htables.mem htm
    exact (hv.tables u hu).of_withoutJoins he
  · rw [ownerIds_eq, ((owners_declare ht hs).map _).nodup_iff, List.map_cons, List.nodup_cons]
    exact ⟨hfree, ownerIds_nodup hv⟩
  · exact fun o ho => ownerSound_declare hv ht hs hpeer ho
  · rw [mirrorIds_eq, ((mirrorRecords_declare ht hp).map _).nodup_iff, List.map_append,
      List.nodup_append]
    refine ⟨?_, mirrorIds_eq schema ▸ hv.mirrorIds, ?_⟩
    · cases wantedMirror? (join.source, join) <;> simp
    · -- a mirror that was there has its owning record, and that is another one
      intro id hid other hother he
      obtain ⟨m, hm, rfl⟩ := List.mem_map.mp hid
      rw [wantedMirror?_id (Option.mem_toList.mp hm)] at he
      obtain ⟨m', hm', rfl⟩ := List.mem_map.mp (mirrorIds_eq schema ▸ hother)
      obtain ⟨o, ho, hoid, -⟩ := owner_of_mirror hv hm'
      refine hfree (ownerIds_eq schema ▸ List.mem_map.mpr ⟨o, ho, ?_⟩)
      rw [hoid, ← he]
  · exact fun m hm => mirrorsOneOf_declare hv ht hs hp hm

end

/-! ## One pending join -/

/-- What a pending join is when it is put back, if it is: its id is free and its tables are there,
and it refers to a column that is. -/
def carried? (schema : Schema) (join : Join) : Option Join :=
  if schema.containsJoin join.id then none
  else join.target.bind fun target =>
    if (schema.table? join.source).isSome then
      (schema.table? target.table).map fun peer =>
        { join with target := some (retarget target peer) }
    else none

theorem retarget_table (target : JoinTarget) (peer : Table) :
    (retarget target peer).table = target.table := by
  unfold retarget
  split
  · split <;> rfl
  · rfl

/-- What refers to a column that is there, or to none because there is none, goes on to do so. -/
theorem retarget_retarget (target : JoinTarget) (peer : Table) :
    retarget (retarget target peer) peer = retarget target peer := by
  cases hc : target.column with
  | none => simp only [retarget, hc]
  | some column =>
      by_cases hpresent : (peer.column? column).isSome
      · simp only [retarget, hc, hpresent, if_true]
      · cases hkey : peer.keyColumn? with
        | none => simp [retarget, hc, hpresent, hkey]
        | some key =>
            have hkeyPresent : (peer.column? key.id).isSome = true :=
              List.find?_isSome.mpr ⟨key, List.mem_of_find?_eq_some hkey, by simp⟩
            simp [retarget, hc, hpresent, hkey, hkeyPresent]

/-- What holds of a join that is put back. -/
theorem carried?_eq_some {schema : Schema} {join back : Join}
    (h : schema.carried? join = some back) :
    schema.containsJoin join.id = false ∧ back.id = join.id ∧ back.source = join.source ∧
      (schema.table? join.source).isSome = true ∧
      ∃ target peer, join.target = some target ∧ schema.table? target.table = some peer ∧
        back = { join with target := some (retarget target peer) } := by
  unfold carried? at h
  split at h
  · cases h
  · rename_i hfree
    obtain ⟨target, ht, h⟩ := Option.bind_eq_some_iff.mp h
    split at h
    · rename_i hs
      obtain ⟨peer, hp, rfl⟩ := Option.map_eq_some_iff.mp h
      exact ⟨by simpa using hfree, rfl, rfl, hs, target, peer, ht, hp, rfl⟩
    · cases h

/-- What has been put back can be put back again. -/
theorem carried?_carried {schema : Schema} {join back : Join} (h : schema.carried? join = some back) :
    schema.carried? back = some back := by
  obtain ⟨hfree, -, -, hs, target, peer, -, hp, rfl⟩ := carried?_eq_some h
  rw [carried?, if_neg (by simpa using hfree), Option.bind_some, if_pos hs, retarget_table, hp,
    Option.map_some, retarget_retarget]

theorem hasTarget_carried {schema : Schema} {join back : Join}
    (h : schema.carried? join = some back) : schema.HasTarget back := by
  obtain ⟨-, -, -, -, target, peer, -, hp, rfl⟩ := carried?_eq_some h
  intro found hfound
  obtain rfl := Option.some.inj hfound
  refine ⟨peer, by rw [retarget_table]; exact hp, fun column hc => ?_⟩
  unfold retarget at hc
  split at hc
  · rename_i old hold
    split at hc
    · rename_i hpresent
      rw [hold, Option.some.injEq] at hc
      exact hc ▸ hpresent
    · -- the key is a column of the table
      obtain ⟨key, hkey, rfl⟩ := Option.map_eq_some_iff.mp hc
      exact List.find?_isSome.mpr ⟨key, List.mem_of_find?_eq_some hkey, by simp⟩
  · rename_i hnone
    rw [hnone] at hc
    cases hc

theorem carryPending_eq (schema : Schema) (join : Join) :
    schema.carryPending join = match schema.carried? join with
      | none => schema
      | some back => schema.declare back := by
  unfold carryPending carried?
  split
  · rfl
  · cases ht : join.target with
    | none => rfl
    | some target =>
        dsimp only [Option.bind_some]
        cases hp : schema.table? target.table with
        | none => cases schema.table? join.source <;> rfl
        | some peer =>
            cases hs : schema.table? join.source with
            | none => rfl
            | some owner =>
                dsimp only [Option.isSome_some, Option.map_some]
                rw [if_pos rfl]
                dsimp only
                rw [declare]
                congr 1
                by_cases he : target.table = join.source
                · rw [addMirror_of_eq rfl (by rw [retarget_table]; exact he), if_pos]
                  simp [Join.isSelfJoin, Join.peer?, retarget_table, he]
                · rw [addMirror_of_ne rfl (by rw [retarget_table]; exact he), if_neg,
                    retarget_table]
                  simp [Join.isSelfJoin, Join.peer?, retarget_table, he]

theorem placed_carryPending {schema : Schema} (h : schema.MirrorsPlaced) (join : Join) :
    (schema.carryPending join).MirrorsPlaced := by
  rw [carryPending_eq]
  split
  · exact h
  · rename_i back hback
    obtain ⟨-, -, hsource, hs, target, peer, -, hp, rfl⟩ := carried?_eq_some hback
    refine placed_declare h rfl hs ?_
    rw [retarget_table, hp]
    rfl

theorem valid_carryPending {schema : Schema} (hv : schema.Valid) (join : Join) :
    (schema.carryPending join).Valid := by
  rw [carryPending_eq]
  split
  · exact hv
  · rename_i back hback
    have htarget := hasTarget_carried hback
    obtain ⟨hfree, -, hsource, hs, target, peer, -, hp, rfl⟩ := carried?_eq_some hback
    exact valid_declare hv hfree rfl hs htarget

theorem sameTables_carryPending (schema : Schema) (join : Join) :
    (schema.carryPending join).SameTables schema := by
  rw [carryPending_eq]
  split
  · exact .refl schema
  · exact sameTables_declare ..

/-! ## All pending joins -/

theorem placed_carryAll {schema : Schema} (h : schema.MirrorsPlaced) (joins : List Join) :
    (joins.foldl carryPending schema).MirrorsPlaced := by
  induction joins generalizing schema with
  | nil => exact h
  | cons join rest ih => exact ih (placed_carryPending h join)

theorem valid_carryAll {schema : Schema} (hv : schema.Valid) (joins : List Join) :
    (joins.foldl carryPending schema).Valid := by
  induction joins generalizing schema with
  | nil => exact hv
  | cons join rest ih => exact ih (valid_carryPending hv join)

theorem sameTables_carryAll (schema : Schema) (joins : List Join) :
    (joins.foldl carryPending schema).SameTables schema := by
  induction joins generalizing schema with
  | nil => exact .refl schema
  | cons join rest ih => exact (ih _).trans (sameTables_carryPending schema join)

end Schema

/-! ## Which records come back -/

/-- The records of a pending join that a table gets: its mirror, or the join itself. -/
def Join.recordsOn (join : Join) (table : TableId) : List Join :=
  if join.source = table then [join]
  else if join.peer? = some table then [join.mirror]
  else []

namespace Schema

/-- The schema with the records of pending joins added to those of its tables. -/
def carrying (schema : Schema) (joins : List Join) : Schema :=
  schema.mapTables fun t => { t with joins := t.joins ++ joins.flatMap (·.recordsOn t.id) }

theorem sameTables_carrying (schema : Schema) (joins : List Join) :
    (schema.carrying joins).SameTables schema := by
  rw [SameTables, carrying, mapTables, List.map_map]
  rfl

theorem carrying_nil (schema : Schema) : schema.carrying [] = schema := by
  rw [carrying, mapTables]
  simp

theorem carrying_cons (schema : Schema) (join : Join) (rest : List Join) :
    (schema.carrying [join]).carrying rest = schema.carrying (join :: rest) := by
  rw [carrying, carrying, carrying, mapTables, mapTables, mapTables, List.map_map]
  simp [List.append_assoc]

theorem modifyTable_eq_mapTables {schema : Schema} (hids : (schema.tables.map (·.id)).Nodup)
    (id : TableId) (f : Table → Table) :
    schema.modifyTable id f = schema.mapTables fun t => if t.id = id then f t else t :=
  congrArg Schema.mk (modifyFirst_eq_map hids id)

theorem declare_eq {schema : Schema} (hids : (schema.tables.map (·.id)).Nodup) {join : Join}
    {target : JoinTarget} (ht : join.target = some target) :
    schema.declare join = schema.carrying [join] := by
  have hmirrored := (sameTables_addMirror schema join).ids ▸ hids
  have hpeer : join.peer? = some target.table := by
    rw [Join.peer?, ht]
    rfl
  -- what each table gets, whichever it is
  have hsource : ∀ t : Table, t.id = join.source → t.addJoin join =
      { t with joins := t.joins ++ [join].flatMap (·.recordsOn t.id) } := by
    intro t he
    simp [Table.addJoin, Join.recordsOn, he]
  have htarget : ∀ t : Table, t.id ≠ join.source → t.id = target.table →
      t.addJoin join.mirror = { t with joins := t.joins ++ [join].flatMap (·.recordsOn t.id) } := by
    intro t hne he
    simp [Table.addJoin, Join.recordsOn, hpeer, he ▸ Ne.symm hne, he]
  have hother : ∀ t : Table, t.id ≠ join.source → t.id ≠ target.table →
      t = { t with joins := t.joins ++ [join].flatMap (·.recordsOn t.id) } := by
    intro t hne hne'
    simp [Join.recordsOn, hpeer, Ne.symm hne, Ne.symm hne']
  rw [declare, modifyTable_eq_mapTables hmirrored]
  by_cases he : target.table = join.source
  · rw [addMirror_of_eq ht he, carrying, mapTables, mapTables]
    refine congrArg _ (List.map_congr_left fun t _ => ?_)
    by_cases hid : t.id = join.source
    · rw [if_pos hid, hsource t hid]
    · rw [if_neg hid]
      exact hother t hid (he ▸ hid)
  · rw [addMirror_of_ne ht he, modifyTable_eq_mapTables hids, carrying, mapTables, mapTables,
      mapTables, List.map_map]
    refine congrArg _ (List.map_congr_left fun t _ => ?_)
    rw [Function.comp_apply]
    by_cases hid : t.id = join.source
    · -- a table never gets both records
      have hid' : ¬ t.id = target.table := fun h => he (h.symm.trans hid)
      rw [if_neg hid', if_pos hid, hsource t hid]
    · by_cases hid' : t.id = target.table
      · rw [if_pos hid']
        exact (if_neg hid).trans (htarget t hid hid')
      · rw [if_neg hid', if_neg hid]
        exact hother t hid hid'

/-- What else is declared does not matter to a join with an id of its own. -/
theorem carried?_declare {schema : Schema} {back : Join} {target : JoinTarget}
    (ht : back.target = some target) (hs : (schema.table? back.source).isSome = true) {join : Join}
    (hne : join.id ≠ back.id) : (schema.declare back).carried? join = schema.carried? join := by
  have htables := sameTables_declare schema back
  have hcontains : (schema.declare back).containsJoin join.id = schema.containsJoin join.id := by
    rw [Bool.eq_iff_iff, containsJoin_iff, containsJoin_iff,
      ((owners_declare ht hs).map _).mem_iff, List.map_cons, List.mem_cons]
    exact or_iff_right hne
  have hsome : ((schema.declare back).table? join.source).isSome =
      (schema.table? join.source).isSome := by
    rw [← Option.isSome_map, htables.table?, Option.isSome_map]
  have hpeer : ∀ target : JoinTarget, ((schema.declare back).table? target.table).map (retarget target) =
      (schema.table? target.table).map (retarget target) := by
    intro target
    have hbare : ∀ t : Table, retarget target t = retarget target t.withoutJoins := fun _ => rfl
    have hfind := congrArg (Option.map (retarget target)) (htables.table? target.table)
    rw [Option.map_map, Option.map_map] at hfind
    exact hfind
  -- the tables are the same but for their joins, and these are not looked at
  rw [carried?, carried?, hcontains]
  split
  · rfl
  · refine congrArg (Option.bind join.target) (funext fun target => ?_)
    rw [hsome]
    split
    · have := congrArg (Option.map fun found => { join with target := some found }) (hpeer target)
      rwa [Option.map_map, Option.map_map] at this
    · rfl

/-- **The pending joins that come back are those that come back alone.** -/
theorem carryAll_eq {schema : Schema} (hids : (schema.tables.map (·.id)).Nodup) {joins : List Join}
    (hn : (joins.map (·.id)).Nodup) :
    joins.foldl carryPending schema = schema.carrying (joins.filterMap schema.carried?) := by
  induction joins generalizing schema with
  | nil => exact (carrying_nil schema).symm
  | cons join rest ih =>
      rw [List.map_cons, List.nodup_cons] at hn
      rw [List.foldl_cons, carryPending_eq]
      cases hback : schema.carried? join with
      | none =>
          rw [List.filterMap_cons_none hback]
          exact ih hids hn.2
      | some back =>
          rw [List.filterMap_cons_some hback, ← carrying_cons]
          obtain ⟨-, hid, hsource, hs, target, peer, -, -, hjoin⟩ := carried?_eq_some hback
          have ht : back.target = some (retarget target peer) := by rw [hjoin]
          dsimp only
          rw [ih ((sameTables_declare schema back).ids ▸ hids) hn.2, ← declare_eq hids ht]
          -- the joins that are still to come have other ids than this one
          refine congrArg _ (filterMap_congr_left fun other hother => ?_)
          refine carried?_declare ht (hsource ▸ hs) ?_
          rw [hid]
          intro he
          exact hn.1 (List.mem_map.mpr ⟨other, hother, he⟩)

/-! ## What is pending then -/

/-- Among the records that a table gets, only its own pending joins are pending. -/
theorem filter_recordsOn (joins : List Join) (id : TableId) :
    (joins.flatMap (·.recordsOn id)).filter (·.source = id) = joins.filter (·.source = id) := by
  induction joins with
  | nil => rfl
  | cons join rest ih =>
      rw [List.flatMap_cons, List.filter_append, ih, Join.recordsOn]
      by_cases hs : join.source = id
      · rw [if_pos hs, List.filter_cons_of_pos (by simpa using hs),
          List.filter_cons_of_pos (by simpa using hs)]
        rfl
      · have hrecord : (if join.peer? = some id then [join.mirror] else []).filter
            (·.source = id) = [] := by
          refine List.filter_eq_nil_iff.mpr fun record hrecord => ?_
          split at hrecord
          · rw [List.mem_singleton.mp hrecord]
            exact fun he => hs (of_decide_eq_true he)
          · cases hrecord
        rw [if_neg hs, hrecord, List.filter_cons_of_neg (by simpa using hs)]
        rfl

end Schema

/-- A table that gets the records of pending joins has those of its own among its pending joins. -/
theorem Table.pendingJoins_carrying (table : Table) (joins : List Join) :
    ({ table with joins := table.joins ++ joins.flatMap (·.recordsOn table.id) } :
      Table).pendingJoins = table.pendingJoins ++ joins.filter (·.source = table.id) := by
  show (table.joins ++ _).filter (·.source = table.id) = _
  rw [List.filter_append, Schema.filter_recordsOn]
  rfl

/-- Where nothing was pending, the joins that are put back are, in the order of their tables. -/
theorem Schema.pendingJoins_carrying_perm {base : Schema} {joins : List Join}
    (hids : (base.tables.map (·.id)).Nodup) (hnothing : ∀ u ∈ base.tables, u.pendingJoins = [])
    (hsources : ∀ join ∈ joins, join.source ∈ base.tables.map (·.id)) :
    (base.carrying joins).pendingJoins.Perm joins := by
  have htables : (base.carrying joins).pendingJoins =
      (base.tables.map (·.id)).flatMap fun id => joins.filter (·.source = id) := by
    rw [pendingJoins_eq, carrying, collect_mapTables, List.flatMap_map, collect]
    rw [List.flatMap_def, List.flatMap_def]
    refine congrArg _ (List.map_congr_left fun u hu => ?_)
    rw [Table.pendingJoins_carrying, hnothing u hu, List.nil_append]
  rw [htables]
  exact flatMap_filter_perm hids hsources

end ErModel
