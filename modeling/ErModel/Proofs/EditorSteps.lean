import ErModel.Proofs.MirrorRuns
import ErModel.Proofs.Workspace

/-!
# What happens to an editor

An edit leaves an editor its schema or replaces it, by one that is valid if the old one was.
Whatever the edit is, it does not touch what the editor keeps of its exchange with the worker: the
source text, the revision that was handed over last, and the last event that was looked at. An event
of the worker in turn is looked at once, and there are four things that may come of it.
-/

namespace ErModel

namespace Schema

theorem valid_configureJoin {schema next : Schema} {ids : IdSupply} {join : JoinId}
    {config : JoinConfig} {configured : Configured}
    (h : schema.configureJoin ids join config = .ok (next, configured)) : next.Valid := by
  obtain ⟨declaring, -, ⟨-, table, hj⟩ | ⟨-, hv, -⟩⟩ := configureJoin_eq_ok h
  · exact (synthesizeJunction_eq_ok hj).1
  · exact hv

theorem valid_reconcile {previous parsed next : Schema} {canvas placed : Canvas} {step : Binary64}
    (h : previous.reconcile canvas parsed step = .ok (next, placed)) : next.Valid := by
  obtain ⟨built, hs, hr⟩ := bind_eq_ok.mp h
  obtain ⟨hv, rfl⟩ := settled.mp hs
  cases hr
  exact hv

end Schema

/-- A document that is read holds a valid schema. -/
theorem Exchange.valid_read {source : String} {placed : Placed}
    (h : Exchange.read source = .ok placed) : placed.schema.Valid := by
  obtain ⟨json, -, h⟩ := bind_eq_ok.mp h
  obtain ⟨found, -, h⟩ := bind_eq_ok.mp h
  split at h
  · rename_i hvalid
    cases h
    exact Schema.validate_iff.mp hvalid
  · cases h

namespace Editor

/-- What an editor keeps of its exchange with the worker. -/
def exchange (editor : Editor) : Option String × Option Nat × Nat :=
  (editor.source, editor.submitted, editor.appliedGeneration)

/-- What an edit may do to an editor. -/
structure Edited (editor later : Editor) : Prop where
  exchange : later.exchange = editor.exchange
  schema : (later.revision = editor.revision ∧ later.schema = editor.schema) ∨
    later.revision = editor.revision + 1 ∧ (editor.schema.Valid → later.schema.Valid)

section

variable {editor later last : Editor}

theorem edited_of_eq (he : later.exchange = editor.exchange) (hr : later.revision = editor.revision)
    (hs : later.schema = editor.schema) : editor.Edited later := ⟨he, Or.inl ⟨hr, hs⟩⟩

theorem edited_replace {next : Schema} (he : later.exchange = editor.exchange)
    (hr : later.revision = editor.revision) (hv : editor.schema.Valid → next.Valid) :
    editor.Edited (later.replace next) :=
  ⟨he, Or.inr ⟨congrArg (· + 1) hr, hv⟩⟩

theorem Edited.of_same (h : editor.Edited later) (he : last.exchange = later.exchange)
    (hr : last.revision = later.revision) (hs : last.schema = later.schema) :
    editor.Edited last := by
  refine ⟨he.trans h.exchange, ?_⟩
  rw [hr, hs]
  exact h.schema

end

/-- A notice is all that a report may leave. -/
theorem report_eq (editor : Editor) (error : SchemaError) :
    ∃ notices, editor.report error = { editor with notices := notices } := by
  unfold report
  split
  · exact ⟨_, rfl⟩
  · exact ⟨editor.notices, rfl⟩

theorem edited_report {editor later : Editor} (he : later.exchange = editor.exchange)
    (hr : later.revision = editor.revision) (hs : later.schema = editor.schema)
    (error : SchemaError) : editor.Edited (later.report error) := by
  obtain ⟨notices, h⟩ := later.report_eq error
  rw [h]
  exact edited_of_eq he hr hs

theorem edited_apply (editor : Editor) (intent : Intent) :
    editor.Edited (editor.apply intent).1 := by
  unfold apply
  split
  · rename_i next effect happlied
    refine edited_replace ?_ ?_ fun hv => Schema.valid_apply hv happlied
    · cases effect <;> rfl
    · cases effect <;> rfl
  · dsimp only
    exact edited_report (by rfl) (by rfl) (by rfl) _

theorem openJoin_eq (editor : Editor) (join : JoinId) : ∃ session notices,
    editor.openJoin join = { editor with session := session, notices := notices } := by
  unfold openJoin
  split
  · rename_i session _
    exact ⟨session, editor.notices, rfl⟩
  · obtain ⟨notices, h⟩ := editor.report_eq (.edit _)
    exact ⟨editor.session, notices, h⟩

theorem Edited.openJoin {editor later : Editor} (h : editor.Edited later) (join : JoinId) :
    editor.Edited (later.openJoin join) := by
  obtain ⟨session, notices, hopen⟩ := later.openJoin_eq join
  rw [hopen]
  exact h.of_same rfl rfl rfl

/-- A table is made by an edit, whichever name it gets. -/
theorem createTable_eq (editor : Editor) (name : Option String) : ∃ wanted,
    (editor.createTable name).1 =
      (editor.apply (.createTable wanted editor.config.keyType.dataType)).1 := by
  unfold createTable
  dsimp only
  generalize (if ((name.map Text.trim).getD "").isEmpty = true then editor.unusedTableName
    else (name.map Text.trim).getD "") = wanted
  refine ⟨wanted, ?_⟩
  split
  · rename_i happly
    rw [happly]
  · rename_i happly
    rw [happly]

theorem edited_createTable (editor : Editor) (name : Option String) :
    editor.Edited (editor.createTable name).1 := by
  obtain ⟨wanted, hmade⟩ := editor.createTable_eq name
  rw [hmade]
  exact edited_apply _ _

/-- What a gesture comes to: an edit, after which a join that it has declared is opened, or a join
that is opened, or a table that is moved, or nothing. -/
theorem handle_cases (editor : Editor) (gesture : Gesture) :
    (∃ intent, gesture.meaning editor.config.onDelete editor.config.onUpdate = .edit intent ∧
      ((editor.handle gesture).1 = (editor.apply intent).1 ∨
        ∃ join, (editor.apply intent).2 = some (.joinCreated join) ∧
          (editor.handle gesture).1 = (editor.apply intent).1.openJoin join)) ∨
    (∃ join, (editor.handle gesture).1 = editor.openJoin join) ∨
    (∃ table position, (editor.schema.table? table).isSome = true ∧
      (editor.handle gesture).1 = { editor with canvas := editor.canvas.place table position }) ∨
    (editor.handle gesture).1 = editor := by
  unfold handle
  split
  · rename_i intent hmeaning
    refine Or.inl ⟨intent, hmeaning, ?_⟩
    split
    · rename_i happly
      exact Or.inl (by rw [happly])
    · rename_i join happly
      exact Or.inr ⟨join, by rw [happly], by rw [happly]⟩
    · rename_i happly
      exact Or.inl (by rw [happly])
  · rename_i join _
    exact Or.inr (Or.inl ⟨join, rfl⟩)
  · rename_i table position _
    split
    · rename_i hthere
      exact Or.inr (Or.inr (Or.inl ⟨table, position, hthere, rfl⟩))
    · exact Or.inr (Or.inr (Or.inr rfl))

theorem edited_handle (editor : Editor) (gesture : Gesture) :
    editor.Edited (editor.handle gesture).1 := by
  rcases editor.handle_cases gesture with ⟨intent, -, hdone | ⟨join, -, hdone⟩⟩ |
    ⟨join, hdone⟩ | ⟨table, position, -, hdone⟩ | hdone <;> rw [hdone]
  · exact edited_apply editor intent
  · exact (edited_apply editor intent).openJoin join
  · exact Edited.openJoin (edited_of_eq rfl rfl rfl) join
  · exact edited_of_eq rfl rfl rfl
  · exact edited_of_eq rfl rfl rfl

theorem edited_commitColumn (editor : Editor) : editor.Edited editor.commitColumn.1 := by
  unfold commitColumn
  split
  · rename_i session next hcommitted
    obtain ⟨edit, table, current, -, -, -, hreplaced⟩ := Schema.commitColumn_eq_ok hcommitted
    exact edited_replace rfl rfl fun _ => (Schema.replaceColumns_eq_ok hreplaced).1
  · dsimp only
    exact edited_report (by rfl) (by rfl) (by rfl) _

/-- A commit of a join configures it, if it succeeds. -/
theorem commitJoin_eq_ok {session after : Session} {schema next : Schema} {ids : IdSupply}
    {configured : Configured}
    (h : session.commitJoin schema ids = (after, .ok (next, configured))) :
    ∃ join config, schema.configureJoin ids join config = .ok (next, configured) := by
  unfold Session.commitJoin at h
  split at h
  · cases (Prod.mk.inj h).2
  · rename_i edit _
    split at h
    · cases (Prod.mk.inj h).2
    · rename_i built made hconfigured
      dsimp only at h
      split at h
      · cases (Prod.mk.inj h).2
        exact ⟨_, _, hconfigured⟩
      · cases (Prod.mk.inj h).2

/-- The session moves on whether a commit of a join succeeds or not. Only if it does, the schema is
replaced; otherwise the error is reported. -/
theorem commitJoin_cases (editor : Editor) : ∃ moved : Editor,
    moved = { editor with session := moved.session, ids := editor.ids.skip 4 } ∧
    ((∃ next configured, editor.session.commitJoin editor.schema editor.ids =
        (moved.session, .ok (next, configured)) ∧ editor.commitJoin.1 = moved.replace next) ∨
      ∃ error, editor.session.commitJoin editor.schema editor.ids =
        (moved.session, .error error) ∧ editor.commitJoin.1 = moved.report (.edit error)) := by
  unfold commitJoin
  cases hcommit : editor.session.commitJoin editor.schema editor.ids with
  | mk session result =>
      refine ⟨{ editor with session := session, ids := editor.ids.skip 4 }, rfl, ?_⟩
      cases result with
      | ok built => exact Or.inl ⟨built.1, built.2, rfl, rfl⟩
      | error error => exact Or.inr ⟨error, rfl, rfl⟩

theorem edited_commitJoin (editor : Editor) : editor.Edited editor.commitJoin.1 := by
  obtain ⟨moved, hmoved, ⟨next, configured, hcommit, hdone⟩ | ⟨error, -, hdone⟩⟩ :=
    editor.commitJoin_cases <;> rw [hdone, hmoved]
  · obtain ⟨join, config, hconfigured⟩ := commitJoin_eq_ok hcommit
    exact edited_replace rfl rfl fun _ => Schema.valid_configureJoin hconfigured
  · exact edited_report (by rfl) (by rfl) (by rfl) _

theorem edited_takeDocument (editor : Editor) (source : String) :
    editor.Edited (editor.takeDocument source).1 := by
  unfold takeDocument
  split
  · rename_i placed hread
    exact edited_replace rfl rfl fun _ => Exchange.valid_read hread
  · dsimp only
    exact edited_report (by rfl) (by rfl) (by rfl) _

end Editor

/-- **An act that is not about the worker is an edit**, if it does anything to the editor at all. -/
theorem Workspace.edited_step (space : Workspace) {act : Act} (hsync : act ≠ .sync)
    (hdeliver : act ≠ .deliver) : space.editor.Edited (space.step act).editor := by
  cases act with
  | createTable name => exact Editor.edited_createTable _ _
  | apply intent => exact Editor.edited_apply _ _
  | handle gesture => exact Editor.edited_handle _ _
  | commitColumn => exact Editor.edited_commitColumn _
  | commitJoin => exact Editor.edited_commitJoin _
  | takeDocument source => exact Editor.edited_takeDocument _ _
  | sync => exact absurd rfl hsync
  | deliver => exact absurd rfl hdeliver
  | draft | takeNotices | submitSource | elapse | expire | complete =>
      exact Editor.edited_of_eq rfl rfl rfl

/-! ## Events -/

namespace Editor

/-- The source text after an event. The text of an older schema is not taken. -/
def sourceAfter (editor : Editor) : CompileEvent → Option String
  | .source _ revision text => if revision < editor.revision then editor.source else some text
  | _ => editor.source

/-- What looking at an event does to an editor. -/
structure Took (editor later : Editor) (event : CompileEvent) : Prop where
  appliedGeneration : later.appliedGeneration = event.generation
  submitted : later.submitted = editor.submitted
  source : later.source = editor.sourceAfter event
  schema : (later.revision = editor.revision ∧ later.schema = editor.schema) ∨
    later.revision = editor.revision + 1 ∧ later.schema.Valid
  /-- A parsed schema replaces the one that it was parsed for. -/
  parsed : ∀ generation parsed next canvas, event = .parsed generation editor.revision parsed →
    editor.schema.reconcile editor.canvas parsed editor.config.positionStep = .ok (next, canvas) →
    later.revision = editor.revision + 1

variable {editor : Editor} {event : CompileEvent}

/-- An event that is not newer than the last one is not looked at. -/
theorem take_stale (h : event.generation ≤ editor.appliedGeneration) :
    (editor.applyCompileEvent event).1 = editor := by
  rw [applyCompileEvent, if_pos h]

/-- **What comes of an event**: its generation is counted and a text is taken, and beside that nothing
happens, or an error is reported, or the schema that was parsed for this one replaces it. -/
theorem applyCompileEvent_cases (editor : Editor) (event : CompileEvent) : ∃ counted : Editor,
    counted = { editor with
      appliedGeneration := counted.appliedGeneration
      source := counted.source } ∧
    ((editor.applyCompileEvent event).1 = counted ∨
      (∃ error, (editor.applyCompileEvent event).1 = counted.report error) ∨
      ∃ parsed next canvas, event = .parsed event.generation editor.revision parsed ∧
        editor.schema.reconcile editor.canvas parsed editor.config.positionStep =
          .ok (next, canvas) ∧
        (editor.applyCompileEvent event).1 = replace { counted with canvas := canvas } next) := by
  by_cases hstale : event.generation ≤ editor.appliedGeneration
  · exact ⟨editor, rfl, Or.inl (take_stale hstale)⟩
  rw [applyCompileEvent, if_neg hstale]
  dsimp only
  split
  · rename_i generation revision text
    split
    · exact ⟨{ editor with appliedGeneration := generation }, rfl, Or.inl rfl⟩
    · exact ⟨{ editor with appliedGeneration := generation, source := some text }, rfl, Or.inl rfl⟩
  · rename_i generation revision parsed
    refine ⟨{ editor with appliedGeneration := generation }, rfl, ?_⟩
    split
    · exact Or.inl rfl
    · rename_i hrevision
      cases Decidable.not_not.mp hrevision
      split
      · rename_i next canvas hreconciled
        exact Or.inr (Or.inr ⟨parsed, next, canvas, rfl, hreconciled, rfl⟩)
      · exact Or.inr (Or.inl ⟨_, rfl⟩)
  · rename_i generation error
    exact ⟨{ editor with appliedGeneration := generation }, rfl,
      Or.inr (Or.inl ⟨.compile error, rfl⟩)⟩

/-- **An event that is newer than the last one is looked at.** -/
theorem took (h : editor.appliedGeneration < event.generation) :
    editor.Took (editor.applyCompileEvent event).1 event := by
  unfold applyCompileEvent
  split
  · rename_i hle
    exact absurd hle (Nat.not_le_of_lt h)
  dsimp only
  split
  · rename_i generation revision text
    split
    · rename_i hr
      exact ⟨rfl, rfl, (if_pos hr).symm, Or.inl ⟨rfl, rfl⟩, nofun⟩
    · rename_i hr
      exact ⟨rfl, rfl, (if_neg hr).symm, Or.inl ⟨rfl, rfl⟩, nofun⟩
  · rename_i generation revision parsed
    split
    · rename_i hr
      refine ⟨rfl, rfl, rfl, Or.inl ⟨rfl, rfl⟩, fun _ _ _ _ he _ => ?_⟩
      cases he
      exact absurd rfl hr
    · split
      · rename_i next canvas hn
        exact ⟨rfl, rfl, rfl, Or.inr ⟨rfl, Schema.valid_reconcile hn⟩, fun _ _ _ _ _ _ => rfl⟩
      · rename_i error hn
        obtain ⟨notices, hreport⟩ := report_eq { editor with appliedGeneration := _ } (.edit error)
        rw [hreport]
        refine ⟨rfl, rfl, rfl, Or.inl ⟨rfl, rfl⟩, fun _ _ _ _ he hok => ?_⟩
        cases he
        rw [hn] at hok
        cases hok
  · obtain ⟨notices, hreport⟩ := report_eq { editor with appliedGeneration := _ } (.compile _)
    rw [hreport]
    exact ⟨rfl, rfl, rfl, Or.inl ⟨rfl, rfl⟩, nofun⟩

end Editor

end ErModel
