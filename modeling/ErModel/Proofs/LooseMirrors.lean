import ErModel.Proofs.Rebuilding
import ErModel.Proofs.Reconciling

/-!
# Mirrors that validity lets through

Validity looks at a mirror beside the owning record of its join: the two have to agree, and no join
has two mirrors. That a mirror is with the table that its join refers to, and refers to nothing
itself, is not asked. So any schema stays valid when its mirrors are moved to other tables, except
to the one that declares the join, and when they are given targets. A table that holds such a mirror
takes the join with it when it is deleted, though it is at neither end.
-/

namespace ErModel

namespace Join

/-- What two records have in common if both make the same mirror. -/
theorem mirror_eq_iff {join other : Join} : other.mirror = join.mirror ↔
    join.id = other.id ∧ join.source = other.source ∧ join.kind = other.kind ∧
      join.onDelete = other.onDelete ∧ join.onUpdate = other.onUpdate ∧
      join.through = other.through := by
  simp only [mirror, Join.mk.injEq, true_and, and_true]
  constructor
  · rintro ⟨hid, hkind, hsource, hdelete, hupdate, hthrough⟩
    exact ⟨hid.symm, hsource.symm, hkind.symm, hdelete.symm, hupdate.symm, hthrough.symm⟩
  · rintro ⟨hid, hsource, hkind, hdelete, hupdate, hthrough⟩
    exact ⟨hid.symm, hkind.symm, hsource.symm, hdelete.symm, hupdate.symm, hthrough.symm⟩

/-- A mirror agrees with an owning record when it is its mirror but for what it refers to. -/
theorem mirrorsOneOf_iff {mirror : Join} {owners : List Join} :
    mirror.MirrorsOneOf owners ↔ ∃ owner ∈ owners, mirror.mirror = owner.mirror := by
  refine exists_congr fun owner => and_congr_right fun _ => ?_
  simp only [mirror_eq_iff, agreesWith, Bool.and_eq_true, decide_eq_true_eq]
  constructor
  · rintro ⟨hid, hsource, ⟨⟨⟨-, hkind⟩, hdelete⟩, hupdate⟩, hthrough⟩
    exact ⟨hid, hsource.symm, hkind, hdelete, hupdate, hthrough⟩
  · rintro ⟨hid, hsource, hkind, hdelete, hupdate, hthrough⟩
    exact ⟨hid, hsource.symm, ⟨⟨⟨hid, hkind⟩, hdelete⟩, hupdate⟩, hthrough⟩

end Join

namespace Schema

variable {schema next : Schema}

/-- Every mirror agrees with an owning record, and no join has two mirrors. -/
structure MirrorsAgree (schema : Schema) : Prop where
  ids : (schema.mirrorRecords.map (·.2.id)).Nodup
  owned : ∀ m ∈ schema.mirrorRecords, ∃ o ∈ schema.owners, m.2.mirror = o.2.mirror

theorem mirrorsAgree_iff : schema.MirrorsAgree ↔ (schema.allMirrors.map (·.2.id)).Nodup ∧
    ∀ m ∈ schema.allMirrors, m.2.MirrorsOneOf (schema.owningJoins.map (·.join)) := by
  have howned : ∀ mirror : Join, (∃ o ∈ schema.owners, mirror.mirror = o.2.mirror) ↔
      mirror.MirrorsOneOf (schema.owningJoins.map (·.join)) := by
    intro mirror
    have hjoins : schema.owningJoins.map (·.join) = schema.owners.map (·.2) := by
      rw [owners_eq, List.map_map]
      rfl
    rw [Join.mirrorsOneOf_iff, hjoins]
    constructor
    · rintro ⟨o, ho, he⟩
      exact ⟨o.2, List.mem_map.mpr ⟨o, ho, rfl⟩, he⟩
    · rintro ⟨_, hj, he⟩
      obtain ⟨o, ho, rfl⟩ := List.mem_map.mp hj
      exact ⟨o, ho, he⟩
  have hall : (∀ m ∈ schema.mirrorRecords, ∃ o ∈ schema.owners, m.2.mirror = o.2.mirror) ↔
      ∀ m ∈ schema.allMirrors, m.2.MirrorsOneOf (schema.owningJoins.map (·.join)) := by
    simp only [howned, mirrorRecords_eq, List.forall_mem_map]
  rw [mirrorIds_eq, ← hall]
  exact ⟨fun h => ⟨h.ids, h.owned⟩, fun h => ⟨h.1, h.2⟩⟩

/-- Schemas that differ in their mirrors alone are equally sound otherwise. -/
theorem valid_of_sameSeats (hv : schema.Valid) (htables : next.SameTables schema)
    (hseats : next.seats = schema.seats) (hm : next.MirrorsAgree) : next.Valid := by
  have hids : (next.tables.map (·.id)).Nodup := htables.ids ▸ hv.ids
  refine ⟨hids, htables.names ▸ hv.names, fun t ht => ?_, ?_, fun o ho => ?_,
    (mirrorsAgree_iff.mp hm).1, (mirrorsAgree_iff.mp hm).2⟩
  · obtain ⟨u, hu, he⟩ := htables.mem ht
    exact (hv.tables u hu).of_withoutJoins he
  · rw [← seatIds_eq, hseats, seatIds_eq]
    exact hv.ownerIds
  · have hseat : o.seat ∈ schema.seats :=
      hseats ▸ seats_eq next ▸ List.mem_map.mpr ⟨o, ho, rfl⟩
    obtain ⟨old, hold, he⟩ := List.mem_map.mp (seats_eq schema ▸ hseat)
    have hjoin : old.join = o.join := congrArg Seat.join he
    exact ownerSound_of_seat hv hseat (htables.hasTarget (hjoin ▸ (hv.owners old hold).target))

/-- The schema without its mirrors. -/
def withoutMirrors (schema : Schema) : Schema :=
  schema.mapTables fun t => { t with joins := t.pendingJoins }

theorem sameTables_withoutMirrors (schema : Schema) : schema.withoutMirrors.SameTables schema := by
  rw [SameTables, withoutMirrors, mapTables, List.map_map]
  rfl

theorem seats_withoutMirrors (schema : Schema) : schema.withoutMirrors.seats = schema.seats := by
  rw [seats, seats, withoutMirrors, collect_mapTables]
  refine collect_congr fun t _ => ?_
  have hpending : Table.pendingJoins { t with joins := t.pendingJoins } = t.pendingJoins := by
    simp [Table.pendingJoins, List.filter_filter]
  rw [Table.seats, hpending]
  rfl

theorem mirrorRecords_withoutMirrors (schema : Schema) :
    schema.withoutMirrors.mirrorRecords = [] := by
  rw [mirrorRecords, withoutMirrors, collect_mapTables, collect, List.flatMap_eq_nil_iff]
  intro t _
  simp [Table.mirrors, Table.pendingJoins, List.filter_filter]

/-- **All that validity asks of mirrors is that they agree.** -/
theorem valid_iff_withoutMirrors :
    schema.Valid ↔ schema.withoutMirrors.Valid ∧ schema.MirrorsAgree := by
  have htables := schema.sameTables_withoutMirrors
  have hseats := schema.seats_withoutMirrors
  constructor
  · intro hv
    refine ⟨valid_of_sameSeats hv htables hseats ⟨?_, ?_⟩,
      mirrorsAgree_iff.mpr ⟨hv.mirrorIds, hv.mirrors⟩⟩
    · rw [mirrorRecords_withoutMirrors]
      exact List.nodup_nil
    · rw [mirrorRecords_withoutMirrors]
      exact fun _ h => absurd h List.not_mem_nil
  · exact fun ⟨hv, hm⟩ => valid_of_sameSeats hv (Eq.symm htables) hseats.symm hm

/-- **A table takes with it the joins at whose ends it is, and those whose mirrors it holds.** -/
theorem owners_of_deleteTable (hids : (schema.tables.map (·.id)).Nodup)
    (hn : (schema.owners.map (·.2.id)).Nodup) {table : TableId}
    (h : schema.deleteTable table = .ok next) :
    next.owners = schema.owners.filter fun o => o.1 ≠ table ∧ o.2.peer? ≠ some table ∧
      ∀ m ∈ schema.mirrorRecords, m.1 = table → m.2.id ≠ o.2.id := by
  obtain ⟨-, rfl⟩ := deleteTable_eq_ok h
  rw [owners_deleteTable]
  refine List.filter_congr fun o ho => ?_
  rw [decide_eq_decide, mem_joinsTouching hids, not_or]
  constructor
  · rintro ⟨hends, hmirrors⟩
    refine ⟨fun he => hends ⟨o, ho, rfl, Or.inl he⟩, fun he => hends ⟨o, ho, rfl, Or.inr he⟩, ?_⟩
    exact fun m hm ht hid => hmirrors ⟨m, hm, ht, hid⟩
  · rintro ⟨hholder, hpeer, hmirrors⟩
    refine ⟨?_, fun ⟨m, hm, ht, hid⟩ => hmirrors m hm ht hid⟩
    rintro ⟨o', ho', hid, hat⟩
    rw [eq_of_key_eq hn ho' ho hid] at hat
    exact hat.elim hholder hpeer

/-- **Checking lets mirrors be anywhere.** A schema passes if it does without its mirrors and these
agree with the owning records of their joins, one for a join. And a table that is deleted takes not
only the joins at whose ends it is, but all those whose mirrors it holds. -/
theorem mirrors_unplaced (schema : Schema) :
    (schema.validate = .ok () ↔ schema.withoutMirrors.validate = .ok () ∧
      (schema.mirrorRecords.map (·.2.id)).Nodup ∧
      ∀ m ∈ schema.mirrorRecords, ∃ o ∈ schema.owners, m.2.mirror = o.2.mirror) ∧
    ∀ table next, schema.validate = .ok () → schema.deleteTable table = .ok next →
      next.owners = schema.owners.filter fun o => o.1 ≠ table ∧ o.2.peer? ≠ some table ∧
        ∀ m ∈ schema.mirrorRecords, m.1 = table → m.2.id ≠ o.2.id := by
  refine ⟨?_, fun table next hv h => ?_⟩
  · rw [validate_iff, validate_iff, valid_iff_withoutMirrors]
    exact and_congr_right fun _ => ⟨fun h => ⟨h.ids, h.owned⟩, fun h => ⟨h.1, h.2⟩⟩
  · have hv := validate_iff.mp hv
    exact owners_of_deleteTable hv.ids (ownerIds_nodup hv) h

/-- The join of `usersWithPosts`, with its mirror on a table of tags in the place of the table of
users, and with a target. -/
def usersWithTags : Schema :=
  let join : Join :=
    { id := ⟨"b->a"⟩
      kind := .oneToOne
      source := ⟨"b000000000000"⟩
      target := some ⟨⟨"a000000000000"⟩, some ⟨"a000000000001"⟩⟩
      onDelete := .cascade
      onUpdate := .restrict
      through := none
      joinColumn := none
      inverseColumn := none }
  let tables := (usersAndPosts ⟨"a", 0⟩ ⟨"b", 0⟩).append
    (Table.seeded ⟨"c000000000000"⟩ ⟨"c000000000001"⟩ "Tag" .uuid)
  (tables.modifyTable ⟨"b000000000000"⟩ (·.addJoin join)).modifyTable ⟨"c000000000000"⟩
    (·.addJoin join)

/-- The schema is valid, and the tags take the join of users and posts with them. -/
theorem usersWithTags_unplaced : usersWithTags.validate = .ok () ∧
    ∃ next, usersWithTags.deleteTable ⟨"c000000000000"⟩ = .ok next ∧
      next.owners = usersWithTags.owners.filter fun o => o.1 ≠ ⟨"c000000000000"⟩ ∧
        o.2.peer? ≠ some ⟨"c000000000000"⟩ ∧
        ∀ m ∈ usersWithTags.mirrorRecords, m.1 = ⟨"c000000000000"⟩ → m.2.id ≠ o.2.id := by
  have hvalidate : usersWithTags.validate = .ok () := ok_of_toOption (by decide +kernel)
  have hdeleted : (usersWithTags.deleteTable ⟨"c000000000000"⟩).toOption.isSome = true := by
    decide +kernel
  obtain ⟨next, hnext⟩ := Option.isSome_iff_exists.mp hdeleted
  exact ⟨hvalidate, next, ok_of_toOption hnext,
    usersWithTags.mirrors_unplaced.2 _ _ hvalidate (ok_of_toOption hnext)⟩

/-- A valid schema has a mirror with a target, and on a table that its join does not refer to; and
that table takes the join with it. -/
theorem usersWithTags_loses_join : usersWithTags.validate = .ok () ∧
    (∃ m ∈ usersWithTags.mirrorRecords, m.2.target.isSome = true ∧
      ∀ o ∈ usersWithTags.owners, o.2.id = m.2.id → o.2.peer? ≠ some m.1) ∧
    usersWithTags.owners.length = 1 ∧
    (∀ o ∈ usersWithTags.owners, o.1 ≠ ⟨"c000000000000"⟩ ∧
      o.2.peer? ≠ some ⟨"c000000000000"⟩) ∧
    (usersWithTags.deleteTable ⟨"c000000000000"⟩).toOption.map (·.owners) = some [] :=
  ⟨ok_of_toOption (by decide +kernel), by decide +kernel, by decide +kernel, by decide +kernel,
    by decide +kernel⟩

end Schema

end ErModel
