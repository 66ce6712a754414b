import ErModel.Proofs.EditorLinks
import ErModel.Proofs.JoinDrafts

/-!
# What is refused changes nothing

Each operation of an editor changes some of its parts and may fail in between: an edit is tried and
the table placed, a commit moves the drafts on, an event is counted before anybody knows what comes
of it. Still an editor is left as it was by whatever is refused. A notice may be added, the failure
of a commit is recorded, and an event is counted.

The operations put off their changes until what can fail is done, with one exception. To commit a
join is to configure it and then to open what has been made, and if that could not be opened, the
failure that was recorded before would be gone. That it can be opened is a matter of the schema: a
foreign key is found in a valid one.
-/

namespace ErModel

namespace Session

variable {session : Session} {schema : Schema} {ids : IdSupply}

/-- A commit of a join that is refused leaves the drafts and records why, if there is a draft. -/
theorem commitJoin_refused (hv : schema.Valid) {error : EditError}
    (h : (session.commitJoin schema ids).2 = .error error) :
    (session.commitJoin schema ids).1 =
      { session with failure := (session.join.map fun _ => error).or session.failure } := by
  obtain ⟨column, join, failure⟩ := session
  cases join with
  | none => rfl
  | some edit =>
      have hopen : (⟨column, some edit, failure⟩ : Session).join = some edit := rfl
      cases hbuilt : schema.configureJoin ids edit.join edit.draft with
      | error refused =>
          rw [commitJoin_of_error hopen hbuilt] at h ⊢
          cases h
          rfl
      | ok built =>
          -- what has been made can be opened, so nothing is refused
          obtain ⟨next, done⟩ := built
          by_cases hkind : edit.draft.kind = .manyToMany
          · obtain ⟨_, _, -, -, -, ⟨-, hmade⟩ | ⟨hno, -⟩⟩ :=
              (Schema.configureJoin_iff (Or.inl ⟨_, rfl⟩)).mp hbuilt
            · obtain ⟨made, -, hr⟩ := bind_eq_ok.mp hmade
              cases hr
              simp only [commitJoin, hbuilt, openConfigured] at h
              cases h
            · exact absurd hkind hno
          · obtain ⟨_, _, _, _, -, -, -, hcommit⟩ := commitJoin_configures hv hopen hkind hbuilt
            rw [hcommit] at h
            cases h

end Session

namespace Editor

variable {editor later : Editor} {happening : Happening} {error : SchemaError}

/-! ## The states of an editor -/

/-- The states that an editor comes into: things happen to it, its drafts become any others, its
notices are taken away, and its schema is handed to a worker. -/
inductive Reachable : Editor → Prop
  | start {editor : Editor} : editor.AtStart → Reachable editor
  | meet {editor : Editor} (happening : Happening) :
    Reachable editor → Reachable (editor.meet happening)
  | draft {editor : Editor} (session : Session) :
    Reachable editor → Reachable { editor with session := session }
  | takeNotices {editor : Editor} : Reachable editor → Reachable editor.takeNotices.1
  | sync {editor : Editor} (worker : Worker) : Reachable editor → Reachable (editor.sync worker).1

theorem valid_meet (hv : editor.schema.Valid) (happening : Happening) :
    (editor.meet happening).schema.Valid := by
  cases happening with
  | createTable name => exact (edited_createTable _ _).valid hv
  | apply intent => exact (edited_apply _ _).valid hv
  | handle gesture => exact (edited_handle _ _).valid hv
  | draft change => exact hv
  | commitColumn => exact (edited_commitColumn _).valid hv
  | commitJoin => exact (edited_commitJoin _).valid hv
  | takeDocument source => exact (edited_takeDocument _ _).valid hv
  | event event =>
      show (editor.applyCompileEvent event).1.schema.Valid
      by_cases hle : event.generation ≤ editor.appliedGeneration
      · rw [take_stale hle]
        exact hv
      · rcases (took (Nat.lt_of_not_le hle)).schema with ⟨-, hs⟩ | ⟨-, hnext⟩
        · exact hs ▸ hv
        · exact hnext

/-- **The schema of an editor is valid in every state.** -/
theorem Reachable.valid (h : editor.Reachable) : editor.schema.Valid := by
  induction h with
  | start h => exact h.linked.valid
  | meet happening _ ih => exact valid_meet ih happening
  | draft session _ ih => exact ih
  | takeNotices _ ih => exact ih
  | sync worker _ ih =>
      unfold Editor.sync
      split
      · exact ih
      · exact ih

/-! ## Refusals -/

/-- The name that a table is to be made with. -/
def wantedTableName (editor : Editor) (name : Option String) : String :=
  let wanted := (name.map Text.trim).getD ""
  if wanted.isEmpty then editor.unusedTableName else wanted

/-- What is asked of the editor is refused: the edit fails, or the commit, a text is no document, a
parsed schema cannot be taken, or the compiler has failed. -/
inductive Refuses (editor : Editor) : Happening → SchemaError → Prop
  | createTable {name : Option String} {error : EditError} :
    editor.schema.apply editor.ids
      (.createTable (editor.wantedTableName name) editor.config.keyType.dataType) = .error error →
    Refuses editor (.createTable name) (.edit error)
  | apply {intent : Intent} {error : EditError} :
    editor.schema.apply editor.ids intent = .error error →
    Refuses editor (.apply intent) (.edit error)
  | handle {gesture : Gesture} {intent : Intent} {error : EditError} :
    gesture.meaning editor.config.onDelete editor.config.onUpdate = .edit intent →
    editor.schema.apply editor.ids intent = .error error →
    Refuses editor (.handle gesture) (.edit error)
  | commitColumn {error : EditError} :
    editor.session.commitColumn editor.schema = .error error →
    Refuses editor .commitColumn (.edit error)
  | commitJoin {error : EditError} :
    (editor.session.commitJoin editor.schema editor.ids).2 = .error error →
    Refuses editor .commitJoin (.edit error)
  | takeDocument {source : String} {error : DocumentError} :
    Exchange.read source = .error error →
    Refuses editor (.takeDocument source) (.document error)
  | parsed {generation : Nat} {parsed : Schema} {error : EditError} :
    editor.appliedGeneration < generation →
    editor.schema.reconcile editor.canvas parsed editor.config.positionStep = .error error →
    Refuses editor (.event (.parsed generation editor.revision parsed)) (.edit error)
  | failed {generation : Nat} {error : Source.CompileError} :
    editor.appliedGeneration < generation →
    Refuses editor (.event (.failed generation error)) (.compile error)

/-- The failure that is recorded after a refusal: that of a commit of an open join, or else the one
that was recorded before. -/
def failureAfter (editor : Editor) : Happening → SchemaError → Option EditError
  | .commitJoin, .edit error => (editor.session.join.map fun _ => error).or editor.session.failure
  | _, _ => editor.session.failure

/-- The generation of the last event that was looked at, after a refusal. -/
def generationAfter (editor : Editor) : Happening → Nat
  | .event event => event.generation
  | _ => editor.appliedGeneration

/-- The editor is as it was, but for one notice if the error is one to be seen, the failure of a join
and the count of events. -/
structure Refused (editor later : Editor) (happening : Happening) (error : SchemaError) : Prop where
  schema : later.schema = editor.schema
  canvas : later.canvas = editor.canvas
  revision : later.revision = editor.revision
  source : later.source = editor.source
  submitted : later.submitted = editor.submitted
  column : later.session.column = editor.session.column
  join : later.session.join = editor.session.join
  config : later.config = editor.config
  notices : later.notices = editor.notices ++
    if error.kind = .invalidIntent then [] else [⟨error.kind, error.message⟩]
  failure : later.session.failure = editor.failureAfter happening error
  appliedGeneration : later.appliedGeneration = editor.generationAfter happening

theorem notices_report (editor : Editor) (error : SchemaError) :
    (editor.report error).notices = editor.notices ++
      if error.kind = .invalidIntent then [] else [⟨error.kind, error.message⟩] := by
  unfold report
  by_cases hk : error.kind = .invalidIntent
  · simp [SchemaError.isVisible, hk]
  · simp [SchemaError.isVisible, hk]

/-- An editor that reports an error, and in which nothing else has changed. -/
theorem refused_report {counted : Editor} {failure : Option EditError} {generation : Nat}
    {ids : IdSupply}
    (hc : counted = { editor with
      session := { editor.session with failure := failure }
      appliedGeneration := generation
      ids := ids })
    (hf : failure = editor.failureAfter happening error)
    (hg : generation = editor.generationAfter happening) :
    editor.Refused (counted.report error) happening error := by
  have hnotices := counted.notices_report error
  obtain ⟨notices, hreport⟩ := counted.report_eq error
  rw [hreport] at hnotices ⊢
  subst hc
  exact ⟨rfl, rfl, rfl, rfl, rfl, rfl, rfl, rfl, hnotices, hf, hg⟩

theorem apply_of_error {intent : Intent} {error : EditError}
    (h : editor.schema.apply editor.ids intent = .error error) :
    editor.apply intent = (({ editor with
      ids := editor.ids.skip (intent.idCount editor.schema) }).report (.edit error), none) := by
  simp only [apply, h]

/-- **What is refused leaves the editor as it was.** -/
theorem refused (h : editor.Reachable) (hr : editor.Refuses happening error) :
    editor.Refused (editor.meet happening) happening error := by
  cases hr with
  | createTable he =>
      show editor.Refused (editor.createTable _).1 _ _
      have happly := apply_of_error he
      rw [wantedTableName] at happly
      simp only [createTable, happly]
      exact refused_report rfl rfl rfl
  | apply he =>
      show editor.Refused (editor.apply _).1 _ _
      rw [apply_of_error he]
      exact refused_report rfl rfl rfl
  | handle hm he =>
      show editor.Refused (editor.handle _).1 _ _
      simp only [handle, hm, apply_of_error he]
      exact refused_report rfl rfl rfl
  | commitColumn he =>
      show editor.Refused editor.commitColumn.1 _ _
      simp only [commitColumn, he]
      exact refused_report rfl rfl rfl
  | commitJoin he =>
      show editor.Refused editor.commitJoin.1 _ _
      have hleft := Session.commitJoin_refused h.valid he
      cases hcommit : editor.session.commitJoin editor.schema editor.ids with
      | mk session result =>
          rw [hcommit] at he hleft
          dsimp only at he hleft
          subst he hleft
          simp only [commitJoin, hcommit]
          exact refused_report rfl rfl rfl
  | takeDocument he =>
      show editor.Refused (editor.takeDocument _).1 _ _
      simp only [takeDocument, he]
      exact refused_report rfl rfl rfl
  | parsed hlt he =>
      show editor.Refused (editor.applyCompileEvent _).1 _ _
      rw [applyCompileEvent, if_neg (show ¬ CompileEvent.generation (.parsed _ _ _) ≤ _ from
        Nat.not_le_of_lt hlt)]
      simp only [ne_eq, not_true_eq_false, if_false, he]
      exact refused_report rfl rfl rfl
  | failed hlt =>
      show editor.Refused (editor.applyCompileEvent _).1 _ _
      rw [applyCompileEvent, if_neg (show ¬ CompileEvent.generation (.failed _ _) ≤ _ from
        Nat.not_le_of_lt hlt)]
      dsimp only
      exact refused_report rfl rfl rfl

theorem Reachable.meetAll (h : editor.Reachable) (run : List Happening) :
    (editor.meetAll run).Reachable := by
  induction run generalizing editor with
  | nil => exact h
  | cons first rest ih => exact ih (h.meet first)

/-- With a table and an open draft, the compiler fails, which is to be seen, and a join is to be
committed although none is open, which is not. -/
theorem openingRun_refused :
    let editor := (start .usual ⟨"a", 0⟩).meetAll openingRun
    let error : SchemaError := .compile (.unavailable "gone")
    editor.Reachable ∧
    (editor.Refuses (.event (.failed 1 (.unavailable "gone"))) error ∧
      editor.Refused (editor.meet (.event (.failed 1 (.unavailable "gone"))))
        (.event (.failed 1 (.unavailable "gone"))) error ∧
      (editor.meet (.event (.failed 1 (.unavailable "gone")))).notices =
        [⟨.compiler, "Compiler error: Compiler unavailable: gone"⟩]) ∧
    (editor.Refuses .commitJoin (.edit (.refused .noJoinOpen)) ∧
      editor.Refused (editor.meet .commitJoin) .commitJoin (.edit (.refused .noJoinOpen)) ∧
      (editor.meet .commitJoin).notices = []) := by
  intro editor error
  have hreach : editor.Reachable := (Reachable.start (.empty _ _)).meetAll openingRun
  have hfailed : editor.Refuses (.event (.failed 1 (.unavailable "gone"))) error :=
    .failed (by decide +kernel)
  have hnone : editor.Refuses .commitJoin (.edit (.refused .noJoinOpen)) := .commitJoin (by rfl)
  exact ⟨hreach, ⟨hfailed, refused hreach hfailed, by decide +kernel⟩,
    hnone, refused hreach hnone, by decide +kernel⟩

end Editor

end ErModel
