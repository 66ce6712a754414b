import ErModel.Editor.Session
import ErModel.Proofs.Reconciling

/-!
# Mirrors in every run

Starting from the empty schema, edits, commits of columns and reconciled source texts may follow one
another in any order. Whatever has been done, every owning record has a target, the mirror that it
asks for is there, on the table referred to, and there is no other.
-/

namespace ErModel

namespace Schema

/-- One change of a schema that succeeds. -/
inductive Step (schema : Schema) : Schema → Prop where
  | edit {ids : IdSupply} {intent : Intent} {next : Schema} {effect : Effect}
      (keeps : schema.KeepsRelationships intent)
      (applied : schema.apply ids intent = .ok (next, effect)) : Step schema next
  | commitColumn {session after : Session} {next : Schema}
      (committed : session.commitColumn schema = .ok (after, next)) : Step schema next
  | reconcile {source : String} {ids rest : IdSupply} {parsed next : Schema}
      {canvas placed : Canvas} {step : Binary64}
      (compiled : Source.compile source ids = (.ok parsed, rest))
      (reconciled : schema.reconcile canvas parsed step = .ok (next, placed)) : Step schema next

/-- What any number of changes may lead to. -/
inductive Reached : Schema → Prop where
  | empty : Reached .empty
  | step {schema next : Schema} (before : Reached schema) (change : schema.Step next) :
      Reached next

theorem valid_empty : Schema.empty.Valid :=
  validate_iff.mp rfl

/-- Committing a column replaces the columns of its table by those with the draft among them. -/
theorem commitColumn_eq_ok {schema next : Schema} {session after : Session}
    (h : session.commitColumn schema = .ok (after, next)) :
    ∃ (edit : ColumnEdit) (table : Table) (current : Column), session.column = some edit ∧
      schema.table? edit.table = some table ∧ table.column? edit.draft.id = some current ∧
      schema.replaceColumns edit.table
        (Session.mergeDraft table { edit.draft with foreignKey := current.foreignKey }) =
          .ok next := by
  unfold Session.commitColumn at h
  split at h
  · rename_i edit hedit
    obtain ⟨table, htable, h⟩ := bind_eq_ok.mp h
    rw [requireTable_eq_ok] at htable
    dsimp only at h
    split at h
    · rename_i current hcurrent
      obtain ⟨built, hbuilt, h⟩ := bind_eq_ok.mp h
      cases h
      exact ⟨edit, table, current, hedit, htable, hcurrent, hbuilt⟩
    · exact absurd h throw_ne_ok
  · exact absurd h throw_ne_ok

/-- A draft that has the foreign key of its column brings no foreign key. -/
theorem keepsForeignKeys_mergeDraft {schema : Schema} {id : TableId} {table : Table}
    (ht : schema.table? id = some table) {draft current : Column}
    (hc : table.column? draft.id = some current) (hf : draft.foreignKey = current.foreignKey) :
    schema.KeepsForeignKeys id (Session.mergeDraft table draft) := by
  intro c hmem join hj
  obtain ⟨old, hold, rfl⟩ := List.mem_map.mp hmem
  refine ⟨table, ht, ?_⟩
  split at hj
  · exact ⟨current, List.mem_of_find?_eq_some hc, hf ▸ hj⟩
  · exact ⟨old, hold, hj⟩

theorem step_placed {schema next : Schema} (hv : schema.Valid) (h : schema.MirrorsPlaced)
    (hs : schema.Step next) : next.Valid ∧ next.MirrorsPlaced := by
  cases hs with
  | edit keeps applied => exact ⟨valid_apply hv applied, placed_apply hv h keeps applied⟩
  | commitColumn committed =>
      obtain ⟨edit, table, current, -, ht, hc, hr⟩ := commitColumn_eq_ok committed
      have hk : schema.KeepsForeignKeys edit.table (Session.mergeDraft table
          { edit.draft with foreignKey := current.foreignKey }) :=
        keepsForeignKeys_mergeDraft ht hc rfl
      exact ⟨(replaceColumns_eq_ok hr).1, placed_replaceColumns hv h hk hr⟩
  | reconcile compiled reconciled =>
      obtain ⟨n, hc⟩ := Source.compile_compiled compiled
      exact placed_reconcile hc.valid hc.placed reconciled

theorem reached_placed {schema : Schema} (h : schema.Reached) :
    schema.Valid ∧ schema.MirrorsPlaced := by
  induction h with
  | empty => exact ⟨valid_empty, placed_empty⟩
  | step _ hs ih => exact step_placed ih.1 ih.2 hs

/-! ## The mirrors of one join -/

theorem mirrors_eq (schema : Schema) (join : JoinId) :
    (schema.mirrors join).map (fun m => (m.1.id, m.2)) =
      schema.mirrorRecords.filter (·.2.id = join) := by
  rw [mirrors, mirrorRecords, filter_collect, collect, List.map_flatMap]
  congr 1
  funext t
  rw [Table.mirrors, List.map_map, List.filter_map, List.filter_filter]
  refine congrArg _ (List.filter_congr fun j _ => ?_)
  rfl

/-- Where mirrors are in their places, those of one join are what its owning record asks for. -/
theorem mirrors_of_owner {schema : Schema} (hv : schema.Valid) (h : schema.MirrorsPlaced)
    {o : TableId × Join} (ho : o ∈ schema.owners) :
    (schema.mirrors o.2.id).map (fun m => (m.1.id, m.2)) = (wantedMirror? o).toList := by
  rw [mirrors_eq]
  have hothers : ((schema.owners.filter (·.2.id ≠ o.2.id)).filterMap wantedMirror?).filter
      (·.2.id = o.2.id) = [] := by
    refine List.filter_eq_nil_iff.mpr fun m hm => ?_
    obtain ⟨p, hp, hw⟩ := List.mem_filterMap.mp hm
    rw [wantedMirror?_id hw]
    simpa using (List.mem_filter.mp hp).2
  have hperm : (schema.mirrorRecords.filter (·.2.id = o.2.id)).Perm (wantedMirror? o).toList := by
    refine (h.mirrors.filter _).trans ?_
    refine (((perm_cons_filter (ownerIds_nodup hv) ho).filterMap wantedMirror?).filter _).trans ?_
    cases hw : wantedMirror? o with
    | none =>
        rw [List.filterMap_cons_none hw, hothers]
        exact List.Perm.refl _
    | some m =>
        rw [List.filterMap_cons_some hw, List.filter_cons_of_pos (by simp [wantedMirror?_id hw]),
          hothers]
        exact List.Perm.refl _
  cases hw : wantedMirror? o with
  | none =>
      rw [hw] at hperm
      exact hperm.eq_nil
  | some m =>
      rw [hw] at hperm
      exact List.perm_singleton.mp hperm

/-- **Mirrors are where they belong, whatever has been done.** Every owning record has a target. If
the target is another table, that table holds one mirror, which has no target, and no other table
holds one; if it is the table of the record itself, there is no mirror at all. -/
theorem mirrors_in_every_run {schema : Schema} (h : schema.Reached) :
    ∀ o ∈ schema.owningJoins, ∃ target, o.join.target = some target ∧
      (target.table ≠ o.holder.id → ∃ peer mirror, schema.mirrors o.join.id = [(peer, mirror)] ∧
        schema.table? target.table = some peer ∧ mirror.target = none) ∧
      (target.table = o.holder.id → schema.mirrors o.join.id = []) := by
  obtain ⟨hv, hp⟩ := reached_placed h
  intro o ho
  have hmem : (o.holder.id, o.join) ∈ schema.owners :=
    owners_eq schema ▸ List.mem_map.mpr ⟨o, ho, rfl⟩
  obtain ⟨target, ht⟩ := Option.isSome_iff_exists.mp (hp.targets _ hmem)
  have hmirrors := mirrors_of_owner hv hp hmem
  refine ⟨target, ht, fun hne => ?_, fun he => ?_⟩
  · rw [wantedMirror?_other ht hne] at hmirrors
    obtain ⟨⟨peer, mirror⟩, hone, hpair⟩ := List.map_eq_singleton_iff.mp hmirrors
    obtain ⟨hid, hmirror⟩ := Prod.mk.inj hpair
    refine ⟨peer, mirror, hone, ?_, ?_⟩
    · have hpeer : peer ∈ schema.tables := by
        have : (peer, mirror) ∈ schema.mirrors o.join.id := by
          rw [show schema.mirrors o.join.id = _ from hone]
          exact List.mem_cons_self
        obtain ⟨t, ht, hm⟩ := List.mem_flatMap.mp this
        obtain ⟨_, -, he⟩ := List.mem_map.mp hm
        exact (Prod.mk.inj he).1 ▸ ht
      exact hid ▸ table?_of_mem hv.ids hpeer
    · show mirror.target = none
      rw [show mirror = o.join.mirror from hmirror]
      rfl
  · rw [wantedMirror?_self ht he] at hmirrors
    exact List.map_eq_nil_iff.mp hmirrors

/-- Edits and a source text lead to a schema with a mirror. -/
theorem usersWithPosts_mirrored : usersWithPosts.Reached ∧
    ∀ o ∈ usersWithPosts.owningJoins, ∃ target, o.join.target = some target ∧
      (target.table ≠ o.holder.id → ∃ peer mirror,
        usersWithPosts.mirrors o.join.id = [(peer, mirror)] ∧
        usersWithPosts.table? target.table = some peer ∧ mirror.target = none) ∧
      (target.table = o.holder.id → usersWithPosts.mirrors o.join.id = []) := by
  have hfirst : Schema.empty.apply ⟨"a", 0⟩ (.createTable "User" .uuid) =
      .ok (usersTable ⟨"a", 0⟩, .tableCreated ⟨"a000000000000"⟩) :=
    ok_of_toOption (by decide +kernel)
  have hsecond : (usersTable ⟨"a", 0⟩).apply ⟨"b", 0⟩ (.createTable "Post" .uuid) =
      .ok (usersAndPosts ⟨"a", 0⟩ ⟨"b", 0⟩, .tableCreated ⟨"b000000000000"⟩) :=
    ok_of_toOption (by decide +kernel)
  have hconnect : (usersAndPosts ⟨"a", 0⟩ ⟨"b", 0⟩).apply ⟨"c", 0⟩
      (.connect ⟨"b000000000000"⟩ ⟨"a000000000000"⟩ none .cascade .restrict) =
      .ok (usersWithPosts, .joinCreated ⟨"b000000000000->a000000000000"⟩) :=
    ok_of_toOption (by decide +kernel)
  have hreconcile : usersWithPosts.reconcile .empty (usersAndPosts ⟨"d", 0⟩ ⟨"d", 2⟩)
      (.zero false) = .ok (usersWithPosts, Canvas.empty.arranged usersWithPosts (.zero false)) :=
    ok_of_toOption (by decide +kernel)
  have husers : (usersTable ⟨"a", 0⟩).Reached := .step .empty (.edit (by trivial) hfirst)
  have hposts : (usersAndPosts ⟨"a", 0⟩ ⟨"b", 0⟩).Reached :=
    .step husers (.edit (by trivial) hsecond)
  have hjoined : usersWithPosts.Reached := .step hposts (.edit (by trivial) hconnect)
  have hreached : usersWithPosts.Reached :=
    .step hjoined (.reconcile compile_usersAndPostsSource hreconcile)
  exact ⟨hreached, mirrors_in_every_run hreached⟩

end Schema

end ErModel
