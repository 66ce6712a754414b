import ErModel.Proofs.EditorLinks
import ErModel.Proofs.JoinViews

/-!
# Failures that are left behind

The commit of a join may fail. The session then records why, beside the draft that is to be mended,
and the record is to go when the draft goes: it is cleared when a join is opened or closed, and when
a commit succeeds. In one case it is not. The schema may be replaced by one without the join; then
the draft is dropped, like that of any part that is gone, and the failure is left behind. From the
empty editor on, this is the only way to a failure that belongs to no draft.
-/

namespace ErModel

/-! ## Edges that stay -/

theorem Table.Resolves.addJoin {table : Table} {edge : JoinId} (h : table.Resolves edge)
    (join : Join) : (table.addJoin join).Resolves edge :=
  h.imp_right fun ⟨j, hj, hid⟩ => ⟨j, List.mem_append_left _ hj, hid⟩

namespace Schema

variable {schema next : Schema} {edge : JoinId}

/-- A further record hides no edge. -/
theorem resolveEdge?_addJoin (h : (schema.resolveEdge? edge).isSome = true) (table : TableId)
    (join : Join) :
    ((schema.modifyTable table (·.addJoin join)).resolveEdge? edge).isSome = true := by
  obtain ⟨t, ht, hresolves⟩ := resolveEdge?_isSome_iff.mp h
  refine resolveEdge?_isSome_iff.mpr ?_
  rcases mem_modifyFirst ht with hkept | hadded
  · exact ⟨t, hkept, hresolves⟩
  · exact ⟨t.addJoin join, hadded, hresolves.addJoin join⟩

/-- **Connecting two tables hides no edge.** -/
theorem resolveEdge?_connect {source target : TableId} {column : Option ColumnId}
    {onDelete onUpdate : Action} {id : JoinId}
    (hconnected : schema.connect source target column onDelete onUpdate = .ok (next, id))
    (h : (schema.resolveEdge? edge).isSome = true) : (next.resolveEdge? edge).isSome = true := by
  rcases connect_eq_ok hconnected with ⟨-, rfl⟩ | ⟨-, join, referenced, -, -, htarget, -, -, rfl⟩
  · exact h
  · refine resolveEdge?_addJoin ?_ _ join
    by_cases hself : target = join.source
    · rw [addMirror_of_eq htarget hself]
      exact h
    · rw [addMirror_of_ne htarget hself]
      exact resolveEdge?_addJoin h _ _

/-- Connecting is the only edit that declares a join. -/
theorem resolveEdge?_joinCreated {ids : IdSupply} {intent : Intent} {join : JoinId}
    (happlied : schema.apply ids intent = .ok (next, .joinCreated join))
    (h : (schema.resolveEdge? edge).isSome = true) : (next.resolveEdge? edge).isSome = true := by
  cases intent with
  | connect source target column onDelete onUpdate =>
      obtain ⟨built, hconnected, hr⟩ := bind_eq_ok.mp happlied
      cases hr
      exact resolveEdge?_connect hconnected h
  | _ =>
      obtain ⟨built, -, hr⟩ := bind_eq_ok.mp happlied
      cases hr

end Schema

/-! ## Sessions -/

namespace Session

/-- A failure is recorded only while a join is open. -/
def FailureOpen (session : Session) : Prop := session.join = none → session.failure = none

instance (session : Session) : Decidable session.FailureOpen :=
  inferInstanceAs (Decidable (_ → _))

/-- A failure is recorded while a join is open, and the schema does not have that join. -/
def Strands (session : Session) (schema : Schema) : Prop :=
  session.failure.isSome = true ∧
    ∃ edit, session.join = some edit ∧ schema.resolveEdge? edit.join = none

variable {session after opened : Session} {schema next : Schema}

theorem failureOpen_of_none (h : session.failure = none) : session.FailureOpen := fun _ => h

theorem FailureOpen.of_eq (h : session.FailureOpen) (hjoin : after.join = session.join)
    (hfailure : after.failure = session.failure) : after.FailureOpen :=
  fun hnone => hfailure.trans (h (hjoin.symm.trans hnone))

theorem LinkedIn.not_strands (h : session.LinkedIn schema) : ¬ session.Strands schema := by
  rintro ⟨-, edit, hedit, hnone⟩
  obtain ⟨owned, howned⟩ := h.join edit hedit
  exact Option.some_ne_none owned (howned.symm.trans hnone)

/-- **Drafts are dropped without a failure unless one is left behind.** -/
theorem failureOpen_forgetMissing_iff (h : session.FailureOpen) :
    (session.forgetMissing next).FailureOpen ↔ ¬ session.Strands next := by
  unfold FailureOpen Strands forgetMissing
  cases hjoin : session.join with
  | none => exact iff_of_true (fun _ => h hjoin) fun ⟨_, _, hedit, _⟩ => nomatch hedit
  | some edit =>
      cases hresolved : next.resolveEdge? edit.join with
      | some owned => simp [hresolved]
      | none => simp [hresolved]

theorem failure_openJoin {join : JoinId} (hopen : session.openJoin schema join = .ok opened) :
    opened.failure = none := by
  unfold Session.openJoin at hopen
  split at hopen
  · cases hopen
    rfl
  · cases hopen

theorem openColumn_keeps {table : TableId} {column : ColumnId}
    (hopen : session.openColumn schema table column = .ok opened) :
    opened.join = session.join ∧ opened.failure = session.failure := by
  obtain ⟨owner, -, hopen⟩ := bind_eq_ok.mp hopen
  split at hopen
  · cases hopen
    exact ⟨rfl, rfl⟩
  · cases hopen

theorem FailureOpen.change (h : session.FailureOpen) (schema : Schema) (change : DraftChange) :
    (session.change schema change).FailureOpen := by
  cases change with
  | openColumn table column =>
      refine getD_toOption (P := FailureOpen) h fun opened hopen => ?_
      obtain ⟨hjoin, hfailure⟩ := openColumn_keeps hopen
      exact h.of_eq hjoin hfailure
  | openJoin join =>
      exact getD_toOption (P := FailureOpen) h fun opened hopen =>
        failureOpen_of_none (failure_openJoin hopen)
  | closeJoin => exact failureOpen_of_none rfl
  | closeColumn | editColumn => exact h.of_eq rfl rfl
  | editJoin draft => exact fun hnone => h (Option.map_eq_none_iff.mp hnone)

/-- The commit of a column leaves the join alone. -/
theorem commitColumn_keeps (h : session.commitColumn schema = .ok (after, next)) :
    after.join = session.join ∧ after.failure = session.failure := by
  unfold commitColumn at h
  split at h
  · obtain ⟨table, -, h⟩ := bind_eq_ok.mp h
    split at h
    · obtain ⟨built, -, h⟩ := bind_eq_ok.mp h
      cases h
      exact ⟨rfl, rfl⟩
    · cases h
  · cases h

theorem failure_openConfigured {join : JoinId} {configured : Configured}
    (hnone : session.failure = none)
    (hopen : session.openConfigured schema join configured = .ok opened) :
    opened.failure = none := by
  cases configured with
  | foreignKey table column =>
      obtain ⟨reopened, hjoin, hcolumn⟩ := bind_eq_ok.mp hopen
      exact (openColumn_keeps hcolumn).2.trans (failure_openJoin hjoin)
  | junction table =>
      cases hopen
      exact hnone

/-- **A commit of the join that succeeds leaves no failure**, whatever it has made of the join. -/
theorem failure_commitJoin {ids : IdSupply} {built : Schema × Configured}
    (h : session.commitJoin schema ids = (after, .ok built)) : after.failure = none := by
  unfold commitJoin at h
  split at h
  · cases (Prod.mk.inj h).2
  · split at h
    · cases (Prod.mk.inj h).2
    · dsimp only at h
      split at h
      · rename_i hopened
        obtain ⟨rfl, -⟩ := Prod.mk.inj h
        exact failure_openConfigured rfl hopened
      · cases (Prod.mk.inj h).2

/-- A commit that fails is one of a join that is open, or changes nothing. -/
theorem FailureOpen.commitJoin (h : session.FailureOpen) {ids : IdSupply} {error : EditError}
    (hcommit : session.commitJoin schema ids = (after, .error error)) : after.FailureOpen := by
  intro hnone
  rw [(commitJoin_eq_error hcommit).2] at hnone
  rw [Session.commitJoin, hnone] at hcommit
  obtain ⟨rfl, -⟩ := Prod.mk.inj hcommit
  exact h hnone

end Session

/-! ## Editors -/

namespace Editor

/-- A happening drops the draft of a join and leaves its failure behind. A commit of the join never
does: it clears the failure, or keeps the draft. -/
def StrandsFailure (editor : Editor) : Happening → Prop
  | .commitJoin => False
  | happening => editor.session.Strands (editor.meet happening).schema

/-- What an edit leaves of the failure belongs to an open join, unless the edit has stranded it. -/
def FailureFollows (editor later : Editor) : Prop :=
  later.session.FailureOpen ↔ ¬ editor.session.Strands later.schema

variable {editor later : Editor}

theorem failureOpen_report (error : SchemaError) :
    (editor.report error).session.FailureOpen ↔ editor.session.FailureOpen := by
  obtain ⟨notices, hreport⟩ := editor.report_eq error
  rw [hreport]

/-- Nothing is stranded while the schema stays. -/
theorem failureFollows_of_same (hl : editor.Linked) (hschema : later.schema = editor.schema)
    (h : later.session.FailureOpen) : editor.FailureFollows later :=
  iff_of_true h (hschema ▸ hl.session.not_strands)

theorem failureFollows_report (hl : editor.Linked) (h : editor.session.FailureOpen)
    (hschema : later.schema = editor.schema) (hsession : later.session = editor.session)
    (error : SchemaError) : editor.FailureFollows (later.report error) :=
  failureFollows_of_same hl ((schema_report later error).trans hschema)
    ((failureOpen_report error).mpr (hsession ▸ h))

/-- **A replacement of the schema is the only thing that strands a failure.** -/
theorem failureFollows_replace (h : editor.session.FailureOpen)
    (hjoin : later.session.join = editor.session.join)
    (hfailure : later.session.failure = editor.session.failure) (next : Schema) :
    editor.FailureFollows (later.replace next) := by
  have hforget : (later.session.forgetMissing next).FailureOpen ↔ ¬ later.session.Strands next :=
    Session.failureOpen_forgetMissing_iff (h.of_eq hjoin hfailure)
  rw [Session.Strands, hjoin, hfailure] at hforget
  exact hforget

theorem failureOpen_openJoin (h : editor.session.FailureOpen) (join : JoinId) :
    (editor.openJoin join).session.FailureOpen := by
  unfold openJoin
  split
  · rename_i hopen
    exact Session.failureOpen_of_none (Session.failure_openJoin hopen)
  · exact (failureOpen_report _).mpr h

theorem failureFollows_apply (hl : editor.Linked) (h : editor.session.FailureOpen)
    (intent : Intent) : editor.FailureFollows (editor.apply intent).1 := by
  unfold apply
  split
  · rename_i next effect _
    cases effect <;> exact failureFollows_replace h rfl rfl next
  · dsimp only
    exact failureFollows_report hl h (by rfl) (by rfl) _

theorem failureFollows_createTable (hl : editor.Linked) (h : editor.session.FailureOpen)
    (name : Option String) : editor.FailureFollows (editor.createTable name).1 := by
  obtain ⟨wanted, hmade⟩ := editor.createTable_eq name
  rw [hmade]
  exact failureFollows_apply hl h _

/-- An edit that declares a join strands nothing. -/
theorem not_strands_joinCreated (hl : editor.Linked) {intent : Intent} {join : JoinId}
    (happly : (editor.apply intent).2 = some (.joinCreated join)) :
    ¬ editor.session.Strands (editor.apply intent).1.schema := by
  rcases editor.apply_cases intent with ⟨next, effect, happlied, hschema, heffect⟩ | ⟨-, hnone⟩
  · cases heffect.symm.trans happly
    rw [hschema]
    rintro ⟨-, edit, hedit, hgone⟩
    have hresolved := Option.isSome_iff_exists.mpr (hl.session.join edit hedit)
    have hkept := Schema.resolveEdge?_joinCreated happlied hresolved
    rw [hgone] at hkept
    cases hkept
  · cases hnone.symm.trans happly

theorem failureFollows_handle (hl : editor.Linked) (h : editor.session.FailureOpen)
    (gesture : Gesture) : editor.FailureFollows (editor.handle gesture).1 := by
  rcases editor.handle_cases gesture with ⟨intent, -, hdone | ⟨join, hjoin, hdone⟩⟩ |
    ⟨join, hdone⟩ | ⟨table, position, -, hdone⟩ | hdone <;> rw [hdone]
  · exact failureFollows_apply hl h intent
  · -- nothing was stranded, and the new join is opened in place of the draft that was open
    have hkept := not_strands_joinCreated hl hjoin
    have hopen := (failureFollows_apply hl h intent).mpr hkept
    exact iff_of_true (failureOpen_openJoin hopen join) ((schema_openJoin _ join).symm ▸ hkept)
  · exact failureFollows_of_same hl (schema_openJoin _ join) (failureOpen_openJoin h join)
  · exact failureFollows_of_same hl rfl h
  · exact failureFollows_of_same hl rfl h

theorem failureFollows_commitColumn (hl : editor.Linked) (h : editor.session.FailureOpen) :
    editor.FailureFollows editor.commitColumn.1 := by
  unfold commitColumn
  split
  · rename_i hcommitted
    obtain ⟨hjoin, hfailure⟩ := Session.commitColumn_keeps hcommitted
    exact failureFollows_replace h hjoin hfailure _
  · exact failureFollows_report hl h rfl rfl _

theorem failureFollows_takeDocument (hl : editor.Linked) (h : editor.session.FailureOpen)
    (source : String) : editor.FailureFollows (editor.takeDocument source).1 := by
  unfold takeDocument
  split
  · exact failureFollows_replace h (by rfl) (by rfl) _
  · exact failureFollows_report hl h rfl rfl _

theorem failureFollows_applyCompileEvent (hl : editor.Linked) (h : editor.session.FailureOpen)
    (event : CompileEvent) : editor.FailureFollows (editor.applyCompileEvent event).1 := by
  obtain ⟨counted, hcounted, hdone | ⟨error, hdone⟩ |
    ⟨parsed, next, canvas, -, -, hdone⟩⟩ := editor.applyCompileEvent_cases event <;>
    rw [hdone, hcounted]
  · exact failureFollows_of_same hl rfl h
  · exact failureFollows_report hl h (by rfl) (by rfl) error
  · exact failureFollows_replace h rfl rfl next

/-- The commit of a join clears the failure, or leaves it beside the draft. -/
theorem failureOpen_commitJoin (h : editor.session.FailureOpen) :
    editor.commitJoin.1.session.FailureOpen := by
  obtain ⟨moved, -, ⟨next, configured, hcommit, hdone⟩ | ⟨error, hcommit, hdone⟩⟩ :=
    editor.commitJoin_cases <;> rw [hdone]
  · have hnone : moved.session.failure = none := Session.failure_commitJoin hcommit
    exact Session.failureOpen_of_none hnone
  · exact (failureOpen_report _).mpr (h.commitJoin hcommit)

/-- **One happening leaves the failure to an open join, unless it strands it.** -/
theorem failureOpen_meet_iff (hl : editor.Linked) (h : editor.session.FailureOpen)
    (happening : Happening) :
    (editor.meet happening).session.FailureOpen ↔ ¬ editor.StrandsFailure happening := by
  cases happening with
  | createTable name => exact failureFollows_createTable hl h name
  | apply intent => exact failureFollows_apply hl h intent
  | handle gesture => exact failureFollows_handle hl h gesture
  | draft change => exact failureFollows_of_same hl rfl (h.change editor.schema change)
  | commitColumn => exact failureFollows_commitColumn hl h
  | commitJoin => exact iff_of_true (failureOpen_commitJoin h) id
  | takeDocument source => exact failureFollows_takeDocument hl h source
  | event event => exact failureFollows_applyCompileEvent hl h event

/-! ## Runs -/

theorem failureOpen_run_iff (hl : editor.Linked) (h : editor.session.FailureOpen)
    (run : List Happening) :
    (∀ n, (editor.meetAll (run.take n)).session.FailureOpen) ↔
      ∀ n happening, run[n]? = some happening →
        ¬ (editor.meetAll (run.take n)).StrandsFailure happening :=
  run_good_iff (fun _ _ => trivial)
    (fun (e : Editor) (he : e.Linked ∧ e.session.FailureOpen) => he.2)
    (fun _ happening _ he => (failureOpen_meet_iff he.1 he.2 happening).mp)
    (fun _ happening _ he hno =>
      ⟨he.1.meet happening, (failureOpen_meet_iff he.1 he.2 happening).mpr hno⟩)
    ⟨hl, h⟩

/-- **From the empty editor on, a recorded failure belongs to an open join for as long as no
happening takes the join away while its failure is recorded.** -/
theorem failures_open_iff (config : EditorConfig) (ids : IdSupply) (run : List Happening) :
    (∀ n, ((start config ids).meetAll (run.take n)).session.FailureOpen) ↔
      ∀ n happening, run[n]? = some happening →
        ¬ ((start config ids).meetAll (run.take n)).StrandsFailure happening :=
  failureOpen_run_iff (AtStart.empty config ids).linked (Session.failureOpen_of_none rfl) run

/-- Two tables are connected. The join is to become a junction table with the name of the first
one, which is refused, and then the first table is deleted. -/
def strandingRun : List Happening :=
  [.createTable (some "A"), .createTable (some "B"),
    .handle (.connect ⟨"a000000000000"⟩ ⟨"a000000000002"⟩ none),
    .draft (.editJoin
      { target := ⟨⟨"a000000000002"⟩, some ⟨"a000000000003"⟩⟩
        kind := .manyToMany
        onDelete := .cascade
        onUpdate := .cascade
        through := some "A"
        joinColumn := none
        inverseColumn := none }),
    .commitJoin, .apply (.deleteTable ⟨"a000000000000"⟩)]

/-- The draft goes with the table, and the failure stays. -/
theorem strandingRun_leaves_failure :
    let reached := ((start .usual ⟨"a", 0⟩).meetAll strandingRun).session
    ¬ reached.FailureOpen ∧ reached.join = none ∧
      reached.failure = some (.junction (.nameTaken "A")) := by
  decide +kernel

end Editor

end ErModel
