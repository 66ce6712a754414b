import ErModel.Proofs.ColumnNames
import ErModel.Proofs.EditorSteps

/-!
# The names of columns in every run

An editor starts without tables. What is done with it keeps the names of columns apart, with two
exceptions: columns that are to replace those of a table may have a name twice, and the draft of a
column may have the name of another column. Both are accepted, and then the schema has a table that
no source text describes.
-/

namespace ErModel

/-- One thing that is done with an editor. -/
inductive Operation where
  | createTable (name : Option String)
  | apply (intent : Intent)
  | handle (gesture : Gesture)
  /-- A draft is opened, changed or closed: the session becomes any other one. -/
  | draft (session : Session)
  | commitColumn
  | commitJoin
  /-- The editor gets what the compiler makes of a request, whatever the request was made for. -/
  | compiled (request : CompileRequest) (generation : Nat) (ids : IdSupply)

namespace Editor

/-- What an operation makes of an editor. -/
def operate (editor : Editor) : Operation → Editor
  | .createTable name => (editor.createTable name).1
  | .apply intent => (editor.apply intent).1
  | .handle gesture => (editor.handle gesture).1
  | .draft session => { editor with session := session }
  | .commitColumn => editor.commitColumn.1
  | .commitJoin => editor.commitJoin.1
  | .compiled request generation ids =>
    (editor.applyCompileEvent (request.run generation ids).1).1

/-- What a run makes of an editor. -/
def operateAll (editor : Editor) (operations : List Operation) : Editor :=
  operations.foldl operate editor

/-- The draft that is open has the name of another column of its table. -/
def DraftDoublesName (editor : Editor) : Prop :=
  ∃ edit table, editor.session.column = some edit ∧
    editor.schema.table? edit.table = some table ∧
    ∃ c ∈ table.columns, c.id ≠ edit.draft.id ∧ c.name = edit.draft.name

/-- An operation that gives two columns of a table one name is accepted. -/
def AcceptsDouble (editor : Editor) : Operation → Prop
  | .apply intent => (editor.apply intent).2.isSome = true ∧ intent.DoublesName
  | .commitColumn => editor.commitColumn.2 = true ∧ editor.DraftDoublesName
  | _ => False

/-! ## One operation -/

theorem schema_report (editor : Editor) (error : SchemaError) :
    (editor.report error).schema = editor.schema := by
  unfold report
  split <;> rfl

theorem schema_openJoin (editor : Editor) (join : JoinId) :
    (editor.openJoin join).schema = editor.schema := by
  obtain ⟨session, notices, hopen⟩ := editor.openJoin_eq join
  rw [hopen]

theorem apply_cases (editor : Editor) (intent : Intent) :
    (∃ next effect, editor.schema.apply editor.ids intent = .ok (next, effect) ∧
      (editor.apply intent).1.schema = next ∧ (editor.apply intent).2 = some effect) ∨
    (editor.apply intent).1.schema = editor.schema ∧ (editor.apply intent).2 = none := by
  unfold apply
  split
  · rename_i next effect happlied
    exact Or.inl ⟨next, effect, happlied, rfl, rfl⟩
  · exact Or.inr ⟨schema_report _ _, rfl⟩

theorem columnsApart_apply_iff {editor : Editor} (h : editor.schema.ColumnsApart)
    (intent : Intent) : (editor.apply intent).1.schema.ColumnsApart ↔
      ¬ ((editor.apply intent).2.isSome = true ∧ intent.DoublesName) := by
  rcases editor.apply_cases intent with ⟨next, effect, happlied, hs, he⟩ | ⟨hs, he⟩
  · rw [hs, he, Schema.columnsApart_apply_iff h happlied]
    simp
  · rw [hs, he]
    simpa using h

/-- No gesture means a replacement of columns. -/
theorem columnsApart_handle {editor : Editor} (h : editor.schema.ColumnsApart)
    (gesture : Gesture) : (editor.handle gesture).1.schema.ColumnsApart := by
  have hedited : ∀ intent, gesture.meaning editor.config.onDelete editor.config.onUpdate =
      .edit intent → (editor.apply intent).1.schema.ColumnsApart := by
    intro intent hmeaning
    refine (columnsApart_apply_iff h intent).mpr fun hdouble => ?_
    cases gesture <;> cases hmeaning <;> exact hdouble.2
  rcases editor.handle_cases gesture with ⟨intent, hmeaning, hdone | ⟨join, -, hdone⟩⟩ |
    ⟨join, hdone⟩ | ⟨table, position, -, hdone⟩ | hdone <;> rw [hdone]
  · exact hedited intent hmeaning
  · exact (schema_openJoin _ join).symm ▸ hedited intent hmeaning
  · exact (schema_openJoin _ join).symm ▸ h
  · exact h
  · exact h

theorem columnsApart_createTable {editor : Editor} (h : editor.schema.ColumnsApart)
    (name : Option String) : (editor.createTable name).1.schema.ColumnsApart := by
  obtain ⟨wanted, hmade⟩ := editor.createTable_eq name
  rw [hmade, columnsApart_apply_iff h]
  exact fun hdouble => hdouble.2

/-- A draft is accepted with any name. -/
theorem columnsApart_commitColumn_iff {editor : Editor} (hv : editor.schema.Valid)
    (h : editor.schema.ColumnsApart) : editor.commitColumn.1.schema.ColumnsApart ↔
      ¬ (editor.commitColumn.2 = true ∧ editor.DraftDoublesName) := by
  unfold commitColumn
  split
  · rename_i session next hcommitted
    obtain ⟨edit, table, current, hopen, htable, hcurrent, hreplaced⟩ :=
      Schema.commitColumn_eq_ok hcommitted
    have hmem := (Schema.mem_of_table? htable).1
    have hdraft : ((Session.mergeDraft table
        { edit.draft with foreignKey := current.foreignKey }).map (·.name)).Nodup ↔
        ∀ c ∈ table.columns, c.id ≠ edit.draft.id → c.name ≠ edit.draft.name :=
      Schema.nodup_mergeDraft_iff (hv.tables table hmem) (h table hmem) hcurrent
    show next.ColumnsApart ↔ ¬ (true = true ∧ editor.DraftDoublesName)
    rw [Schema.columnsApart_replaceColumns_iff h hreplaced, hdraft]
    constructor
    · rintro hapart ⟨-, edit', table', hopen', htable', c, hc, hne, hname⟩
      rw [hopen, Option.some.injEq] at hopen'
      subst hopen'
      rw [htable, Option.some.injEq] at htable'
      subst htable'
      exact hapart c hc hne hname
    · intro hnot c hc hne hname
      exact hnot ⟨rfl, edit, table, hopen, htable, c, hc, hne, hname⟩
  · exact iff_of_true ((editor.schema_report _).symm ▸ h)
      fun hdouble => absurd hdouble.1 Bool.false_ne_true

theorem columnsApart_commitJoin {editor : Editor} (h : editor.schema.ColumnsApart) :
    editor.commitJoin.1.schema.ColumnsApart := by
  obtain ⟨moved, hmoved, ⟨next, configured, hcommit, hdone⟩ | ⟨error, -, hdone⟩⟩ :=
    editor.commitJoin_cases <;> rw [hdone]
  · obtain ⟨join, config, hconfigured⟩ := commitJoin_eq_ok hcommit
    exact h.configureJoin hconfigured
  · rw [schema_report, hmoved]
    exact h

/-- The compiler makes schemas of source texts. -/
theorem parsed_of_run {request : CompileRequest} {generation : Nat} {ids : IdSupply}
    {event revision : Nat} {parsed : Schema}
    (h : (request.run generation ids).1 = .parsed event revision parsed) :
    ∃ source rest, Source.compile source ids = (.ok parsed, rest) := by
  unfold CompileRequest.run at h
  split at h
  · split at h <;> cases h
  · split at h
    · rename_i hcompile
      cases h
      exact ⟨_, _, hcompile⟩
    · cases h

theorem columnsApart_compiled {editor : Editor} (h : editor.schema.ColumnsApart)
    (request : CompileRequest) (generation : Nat) (ids : IdSupply) :
    (editor.applyCompileEvent (request.run generation ids).1).1.schema.ColumnsApart := by
  obtain ⟨counted, hcounted, hdone | ⟨error, hdone⟩ |
    ⟨parsed, next, canvas, hevent, hreconciled, hdone⟩⟩ :=
    editor.applyCompileEvent_cases (request.run generation ids).1 <;> rw [hdone]
  · rw [hcounted]
    exact h
  · rw [schema_report, hcounted]
    exact h
  · obtain ⟨source, rest, hcompile⟩ := parsed_of_run hevent
    exact Schema.columnsApart_reconcile hcompile hreconciled

/-- **One operation keeps names apart, unless it doubles one and is accepted.** -/
theorem columnsApart_operate_iff {editor : Editor} (hv : editor.schema.Valid)
    (h : editor.schema.ColumnsApart) (operation : Operation) :
    (editor.operate operation).schema.ColumnsApart ↔ ¬ editor.AcceptsDouble operation := by
  cases operation with
  | createTable name => exact iff_of_true (columnsApart_createTable h name) id
  | apply intent => exact columnsApart_apply_iff h intent
  | handle gesture => exact iff_of_true (columnsApart_handle h gesture) id
  | draft session => exact iff_of_true h id
  | commitColumn => exact columnsApart_commitColumn_iff hv h
  | commitJoin => exact iff_of_true (columnsApart_commitJoin h) id
  | compiled request generation ids =>
      exact iff_of_true (columnsApart_compiled h request generation ids) id

theorem Edited.valid {editor later : Editor} (h : editor.Edited later)
    (hv : editor.schema.Valid) : later.schema.Valid := by
  rcases h.schema with ⟨-, hs⟩ | ⟨-, hnext⟩
  · exact hs ▸ hv
  · exact hnext hv

theorem valid_operate {editor : Editor} (hv : editor.schema.Valid) (operation : Operation) :
    (editor.operate operation).schema.Valid := by
  cases operation with
  | createTable name => exact (edited_createTable _ _).valid hv
  | apply intent => exact (edited_apply _ _).valid hv
  | handle gesture => exact (edited_handle _ _).valid hv
  | draft session => exact hv
  | commitColumn => exact (edited_commitColumn _).valid hv
  | commitJoin => exact (edited_commitJoin _).valid hv
  | compiled request generation ids =>
      by_cases hle : (request.run generation ids).1.generation ≤ editor.appliedGeneration
      · rw [operate, take_stale hle]
        exact hv
      · rcases (took (Nat.lt_of_not_le hle)).schema with ⟨-, hs⟩ | ⟨-, hnext⟩
        · exact hs ▸ hv
        · exact hnext

/-! ## Runs -/

theorem columnsApart_run_iff {editor : Editor} (hv : editor.schema.Valid)
    (h : editor.schema.ColumnsApart) (operations : List Operation) :
    (∀ n, (editor.operateAll (operations.take n)).schema.ColumnsApart) ↔
      ∀ n operation, operations[n]? = some operation →
        ¬ (editor.operateAll (operations.take n)).AcceptsDouble operation := by
  have hstep : ∀ (e : Editor) (operation : Operation), e.schema.Valid ∧ e.schema.ColumnsApart →
      ((e.operate operation).schema.ColumnsApart ↔ ¬ e.AcceptsDouble operation) :=
    fun e operation he => columnsApart_operate_iff he.1 he.2 operation
  exact run_good_iff (fun _ _ => trivial)
    (fun (e : Editor) (he : e.schema.Valid ∧ e.schema.ColumnsApart) => he.2)
    (fun e operation _ he => (hstep e operation he).mp)
    (fun e operation _ he hno => ⟨valid_operate he.1 operation, (hstep e operation he).mpr hno⟩)
    ⟨hv, h⟩

/-- **From the empty editor on, the names of columns are apart for as long as no double name is
accepted.** -/
theorem names_apart_iff (config : EditorConfig) (ids : IdSupply) (operations : List Operation) :
    (∀ n, ((start config ids).operateAll (operations.take n)).schema.ColumnsApart) ↔
      ∀ n operation, operations[n]? = some operation →
        ¬ ((start config ids).operateAll (operations.take n)).AcceptsDouble operation :=
  columnsApart_run_iff Schema.valid_empty Schema.columnsApart_empty operations

/-- A table is made and gets a column, whose draft is committed under the name of the key. -/
def renamingRun : List Operation :=
  [.createTable (some "A"), .apply (.addColumn ⟨"a000000000000"⟩ "x"),
    .draft ⟨some ⟨⟨"a000000000000"⟩, .plain ⟨"a000000000002"⟩ ⟨"a000000000000"⟩ "id"⟩, none, none⟩,
    .commitColumn]

/-- The commit is accepted, and the text of the schema does not compile. -/
theorem renamingRun_doubles_name :
    let reached := ((start .usual ⟨"a", 0⟩).operateAll renamingRun).schema
    ¬ reached.ColumnsApart ∧
      (Source.compile (Source.textOf reached) ⟨"b", 0⟩).1.toOption = none := by
  decide +kernel

end Editor

end ErModel
