import ErModel.Editor.Session
import ErModel.Proofs.JoinViews
import ErModel.Proofs.Reconfiguring

/-!
# Committing the open join

Configuring a join opens the column that carries it, and the join again as it is stored. Both are
found in what has been built, so a commit fails only if the join cannot be configured. And the draft
that is open then speaks of the table that the join refers to by now: of the declaring one, if the
column has gone to the table that was chosen. So the draft can be committed again, and that changes
nothing, although the second commit finds the join on a column where the first one may have found it
pending.
-/

namespace ErModel

namespace JoinConfig

/-- The choice as the record of a configured join keeps it. -/
def stored (config : JoinConfig) (referenced : TableId) (key : ColumnId) : JoinConfig :=
  { config with target := ⟨referenced, some key⟩, joinColumn := none, inverseColumn := none }

variable {config : JoinConfig} {join : JoinId} {holder referenced : TableId} {key : ColumnId}

@[simp] theorem ofJoin?_record :
    ofJoin? (config.record join holder referenced key) = some (config.stored referenced key) := rfl

@[simp] theorem record_stored : (config.stored referenced key).record join holder referenced key =
    config.record join holder referenced key := rfl

theorem key?_stored {R : Table} {r : Column} (hn : (R.columns.map (·.id)).Nodup)
    (hr : r ∈ R.columns) : (config.stored R.id r.id).key? R = some r := by
  rw [key?, if_pos (by simp [stored])]
  exact find?_key hn hr

end JoinConfig

namespace Schema

variable {next : Schema} {record : Join} {H R : Table} {k r : Column}

/-- An edge stands for the foreign key of its join: no pending record is there, and the mirror has no
target, so that it is not taken for a join of its table with itself. -/
theorem ForeignKeyAt.resolveEdge? (h : next.ForeignKeyAt record H k R r) (hv : next.Valid) :
    next.resolveEdge? record.id = some ⟨H, some k, record⟩ := by
  refine (resolveEdge?_eq_some hv fun m hm => ?_).mpr ?_
  · rw [h.mirrors] at hm
    split at hm
    · cases hm
    · rw [List.mem_singleton.mp hm]
      rfl
  · exact ⟨mem_owningJoins_of_column h.holder.1 h.holder.2 h.carries, rfl⟩

end Schema

namespace Session

variable {session after : Session} {schema next : Schema} {ids : IdSupply} {edit : JoinEdit}
  {record : Join} {draft : JoinConfig} {H R : Table} {k r : Column}

/-- The column that carries a join is open as it is saved, and the join as its record says. Nothing
has failed. -/
def ShowsForeignKey (session : Session) (schema : Schema) (join : JoinId) (table : TableId)
    (column : ColumnId) : Prop :=
  ∃ t saved record draft, schema.table? table = some t ∧ t.column? column = some saved ∧
    saved.foreignKey = some record ∧ record.id = join ∧ JoinConfig.ofJoin? record = some draft ∧
    session = ⟨some ⟨table, saved⟩, some ⟨join, draft⟩, none⟩

/-- What a join has been configured to can be opened. -/
theorem openConfigured_of_foreignKeyAt (hv : next.Valid) (h : next.ForeignKeyAt record H k R r)
    (hdraft : JoinConfig.ofJoin? record = some draft) :
    session.openConfigured next record.id (.foreignKey H.id k.id) =
      .ok ⟨some ⟨H.id, k⟩, some ⟨record.id, draft⟩, none⟩ := by
  have htable : next.table? H.id = some H := Schema.table?_of_mem hv.ids h.holder.1
  have hcolumn : H.column? k.id = some k :=
    find?_key (hv.tables H h.holder.1).columnIds h.holder.2
  simp only [openConfigured, openJoin, h.resolveEdge? hv, Option.bind_some, hdraft, openColumn,
    Schema.requireTable, htable, hcolumn, bind, Except.bind, pure, Except.pure]

/-- A commit fails with what configuring the join fails with. -/
theorem commitJoin_of_error (hopen : session.join = some edit) {error : EditError}
    (h : schema.configureJoin ids edit.join edit.draft = .error error) :
    session.commitJoin schema ids = ({ session with failure := some error }, .error error) := by
  simp only [commitJoin, hopen, h]

/-- A commit opens what it has built. -/
theorem commitJoin_of_ok (hopen : session.join = some edit) (hnv : next.Valid)
    (hbuilt : schema.configureJoin ids edit.join edit.draft = .ok (next, .foreignKey H.id k.id))
    (h : next.ForeignKeyAt record H k R r) (hid : record.id = edit.join)
    (hdraft : JoinConfig.ofJoin? record = some draft) :
    session.commitJoin schema ids =
      (⟨some ⟨H.id, k⟩, some ⟨edit.join, draft⟩, none⟩, .ok (next, .foreignKey H.id k.id)) := by
  have hopened : ∀ s : Session, s.openConfigured next edit.join (.foreignKey H.id k.id) =
      .ok ⟨some ⟨H.id, k⟩, some ⟨edit.join, draft⟩, none⟩ := fun s =>
    hid ▸ openConfigured_of_foreignKeyAt hnv h hdraft
  simp only [commitJoin, hopen, hbuilt, hopened]

/-- A commit succeeds if the join can be configured, and opens the choice as it is stored. -/
theorem commitJoin_configures (hv : schema.Valid) (hopen : session.join = some edit)
    (hkind : edit.draft.kind ≠ .manyToMany) {done : Configured}
    (h : schema.configureJoin ids edit.join edit.draft = .ok (next, done)) :
    ∃ H k R r, done = .foreignKey H.id k.id ∧
      schema.Configures next edit.join edit.draft H k R r ∧ next.Valid ∧
      session.commitJoin schema ids =
        (⟨some ⟨H.id, k⟩, some ⟨edit.join, edit.draft.stored R.id r.id⟩, none⟩,
          .ok (next, done)) := by
  obtain ⟨H, k, R, r, rfl, hc, hnv, -⟩ := Schema.configureJoin_configures hv hkind h
  exact ⟨H, k, R, r, rfl, hc, hnv, commitJoin_of_ok hopen hnv h hc.shape rfl
    JoinConfig.ofJoin?_record⟩

/-- The draft that a commit opens can be committed again. -/
theorem commitJoin_again (hnv : next.Valid) (hkind : edit.draft.kind ≠ .manyToMany)
    (h : schema.Configures next edit.join edit.draft H k R r)
    (hafter : after = ⟨some ⟨H.id, k⟩, some ⟨edit.join, edit.draft.stored R.id r.id⟩, none⟩)
    (ids' : IdSupply) :
    after.commitJoin next ids' = (after, .ok (next, .foreignKey H.id k.id)) := by
  have hR := h.shape.referenced
  let reopened : JoinEdit := ⟨edit.join, edit.draft.stored R.id r.id⟩
  have hopen : after.join = some reopened := by rw [hafter]
  have hagain : next.configureJoin ids' edit.join reopened.draft =
      .ok (next, .foreignKey H.id k.id) :=
    h.again hnv JoinConfig.record_stored rfl
      (JoinConfig.key?_stored (hnv.tables R hR.1).columnIds hR.2) hkind ids'
  rw [commitJoin_of_ok hopen hnv hagain h.shape rfl JoinConfig.ofJoin?_record, hafter]

/-- **Committing a join twice is the same as once.** A commit gives what configuring the join gives.
If that is an error, it is recorded, and the rest is left as it was. A commit that succeeds opens the
column that carries the join, and the join as it is stored; a one-to-many join that was pending is
open with the table that declared it as its target. What is open then can be committed again without
a change. -/
theorem commitJoin_twice (hv : schema.validate = .ok ()) (hopen : session.join = some edit)
    (hkind : edit.draft.kind ≠ .manyToMany) (ids : IdSupply) :
    (session.commitJoin schema ids).2 = schema.configureJoin ids edit.join edit.draft ∧
    (∀ after error, session.commitJoin schema ids = (after, .error error) →
      after = { session with failure := some error }) ∧
    ∀ after next done, session.commitJoin schema ids = (after, .ok (next, done)) →
      ∃ table column, done = .foreignKey table column ∧
        after.ShowsForeignKey next edit.join table column ∧
        (∀ t pending, schema.pending? edit.join = some (t, pending) →
          edit.draft.kind = .oneToMany →
          after.join.map (·.draft.target.table) = some t.id) ∧
        ∀ ids', after.commitJoin next ids' = (after, .ok (next, done)) := by
  have hv := Schema.validate_iff.mp hv
  cases hbuilt : schema.configureJoin ids edit.join edit.draft with
  | error error =>
      have hcommit := commitJoin_of_error hopen hbuilt
      refine ⟨by rw [hcommit], fun after error' h => ?_, fun after next done h => ?_⟩
      · rw [hcommit, Prod.mk.injEq, Except.error.injEq] at h
        rw [← h.1, h.2]
      · rw [hcommit] at h
        cases (Prod.mk.inj h).2
  | ok built =>
      obtain ⟨next, done⟩ := built
      obtain ⟨H, k, R, r, rfl, hc, hnv, hcommit⟩ := commitJoin_configures hv hopen hkind hbuilt
      refine ⟨by rw [hcommit], fun after error h => ?_, fun after next' done' h => ?_⟩
      · rw [hcommit] at h
        cases (Prod.mk.inj h).2
      rw [hcommit, Prod.mk.injEq, Except.ok.injEq, Prod.mk.injEq] at h
      obtain ⟨rfl, rfl, rfl⟩ := h
      refine ⟨H.id, k.id, rfl, ?_, fun t pending hp hone => ?_, commitJoin_again hnv hkind hc rfl⟩
      · exact ⟨H, k, _, _, Schema.table?_of_mem hnv.ids hc.shape.holder.1,
          find?_key (hnv.tables H hc.shape.holder.1).columnIds hc.shape.holder.2, hc.shape.carries,
          rfl, JoinConfig.ofJoin?_record, rfl⟩
      · have hends := (hc.made t pending hp).1
        rw [JoinConfig.ends, if_pos hone] at hends
        exact congrArg some (Prod.mk.inj hends).2

/-- Users are to have many posts: the posts get the column, and the draft turns to the users. -/
theorem postsOfUsers_committed : Schema.postsOfUsers.validate = .ok () ∧
    ∃ (session : Session) (edit : JoinEdit) (after : Session) (next : Schema),
      session.join = some edit ∧ edit.draft = Schema.configTo ⟨"p"⟩ .oneToMany ∧
      session.commitJoin Schema.postsOfUsers ⟨"j", 0⟩ =
        (after, .ok (next, .foreignKey ⟨"p"⟩ ⟨"j000000000000"⟩)) ∧
      after.ShowsForeignKey next edit.join ⟨"p"⟩ ⟨"j000000000000"⟩ ∧
      after.join.map (·.draft.target.table) = some ⟨"u"⟩ ∧
      after.commitJoin next ⟨"k", 0⟩ =
        (after, .ok (next, .foreignKey ⟨"p"⟩ ⟨"j000000000000"⟩)) := by
  have hvalidate : Schema.postsOfUsers.validate = .ok () := ok_of_toOption (by decide +kernel)
  let edit : JoinEdit := ⟨⟨"u->p"⟩, Schema.configTo ⟨"p"⟩ .oneToMany⟩
  let session : Session := ⟨none, some edit, none⟩
  have hdone : ((session.commitJoin Schema.postsOfUsers ⟨"j", 0⟩).2.toOption.map (·.2)) =
      some (.foreignKey ⟨"p"⟩ ⟨"j000000000000"⟩) := by decide +kernel
  obtain ⟨⟨next, done⟩, hbuilt, hplace⟩ := Option.map_eq_some_iff.mp hdone
  dsimp only at hplace
  subst hplace
  have hopen : session.join = some edit := rfl
  have hcommit : session.commitJoin Schema.postsOfUsers ⟨"j", 0⟩ =
      ((session.commitJoin Schema.postsOfUsers ⟨"j", 0⟩).1, .ok (next, _)) :=
    Prod.ext rfl (ok_of_toOption hbuilt)
  obtain ⟨table, column, hplace, hshows, htarget, hagain⟩ :=
    (commitJoin_twice hvalidate hopen (by decide) ⟨"j", 0⟩).2.2 _ next _ hcommit
  obtain ⟨rfl, rfl⟩ := Configured.foreignKey.inj hplace
  obtain ⟨t, pending, hp, hid⟩ : ∃ t pending, Schema.postsOfUsers.pending? edit.join =
      some (t, pending) ∧ t.id = ⟨"u"⟩ := by
    have hp : (Schema.postsOfUsers.pending? edit.join).map (·.1.id) = some ⟨"u"⟩ := by
      decide +kernel
    obtain ⟨⟨t, pending⟩, hp, hid⟩ := Option.map_eq_some_iff.mp hp
    exact ⟨t, pending, hp, hid⟩
  exact ⟨hvalidate, session, edit, _, next, rfl, rfl, hcommit, hshows,
    (htarget t pending hp rfl).trans (congrArg some hid), hagain ⟨"k", 0⟩⟩

end Session

end ErModel
