import ErModel.Proofs.EditorNames

/-!
# What belongs to the schema of an editor

Beside its schema an editor keeps the positions of tables and the drafts that are open, and these
name tables, columns and joins of the schema. An edit changes the parts one after the other: a table
has a position before it is in the schema, and the session may have moved on to a schema that is not
live yet. Whatever the order is, the schema is replaced at the end, and `replace` forgets what the
new schema does not have. So a replacement restores every link by itself, and what does not replace
the schema leaves the links alone or makes one to a part that it has looked up.
-/

namespace ErModel

/-- Something that is done with the drafts. -/
inductive DraftChange where
  | openColumn (table : TableId) (column : ColumnId)
  | closeColumn
  /-- The draft of a column gets other fields. Its id stays. -/
  | editColumn (draft : Column)
  | openJoin (join : JoinId)
  | closeJoin
  | editJoin (draft : JoinConfig)

/-- The session after something is done with its drafts. What cannot be opened changes nothing. -/
def Session.change (session : Session) (schema : Schema) : DraftChange → Session
  | .openColumn table column => (session.openColumn schema table column).toOption.getD session
  | .closeColumn => session.closeColumn
  | .editColumn draft =>
    { session with
      column := session.column.map fun edit =>
        { edit with draft := { draft with id := edit.draft.id } } }
  | .openJoin join => (session.openJoin schema join).toOption.getD session
  | .closeJoin => session.closeJoin
  | .editJoin draft =>
    { session with join := session.join.map fun edit => { edit with draft := draft } }

/-! ## Sessions -/

namespace Session

/-- What is open names parts of a schema. -/
structure LinkedIn (session : Session) (schema : Schema) : Prop where
  column : ∀ edit, session.column = some edit →
    ∃ t ∈ schema.tables, t.id = edit.table ∧ ∃ c ∈ t.columns, c.id = edit.draft.id
  join : ∀ edit, session.join = some edit →
    ∃ owned, schema.resolveEdge? edit.join = some owned

variable {session opened : Session} {schema : Schema}

theorem linkedIn_empty (schema : Schema) : empty.LinkedIn schema where
  column := fun edit hedit => absurd hedit.symm (Option.some_ne_none edit)
  join := fun edit hedit => absurd hedit.symm (Option.some_ne_none edit)

/-- A column that can be opened is there. -/
theorem LinkedIn.openColumn (h : session.LinkedIn schema) {table : TableId} {column : ColumnId}
    (hopen : session.openColumn schema table column = .ok opened) : opened.LinkedIn schema := by
  obtain ⟨owner, howner, hopen⟩ := bind_eq_ok.mp hopen
  obtain ⟨hmem, hid⟩ := Schema.mem_of_table? (Schema.requireTable_eq_ok.mp howner)
  split at hopen
  · rename_i draft hdraft
    cases hopen
    refine ⟨fun edit hedit => ?_, h.join⟩
    cases hedit
    exact ⟨owner, hmem, hid, draft, List.mem_of_find?_eq_some hdraft, rfl⟩
  · cases hopen

/-- A join that can be opened is there. -/
theorem LinkedIn.openJoin (h : session.LinkedIn schema) {join : JoinId}
    (hopen : session.openJoin schema join = .ok opened) : opened.LinkedIn schema := by
  unfold Session.openJoin at hopen
  split at hopen
  · rename_i draft hdraft
    obtain ⟨owned, howned, -⟩ := Option.bind_eq_some_iff.mp hdraft
    cases hopen
    refine ⟨h.column, fun edit hedit => ?_⟩
    cases hedit
    exact ⟨owned, howned⟩
  · cases hopen

/-- What holds of a session, and of what an action makes of it if it succeeds, holds after it. -/
theorem getD_toOption {P : Session → Prop} {tried : Except EditError Session} (h : P session)
    (hok : ∀ opened, tried = .ok opened → P opened) : P (tried.toOption.getD session) := by
  cases tried with
  | ok opened => exact hok opened rfl
  | error => exact h

theorem LinkedIn.change (h : session.LinkedIn schema) (change : DraftChange) :
    (session.change schema change).LinkedIn schema := by
  cases change with
  | openColumn table column =>
      exact getD_toOption (P := (LinkedIn · schema)) h fun _ => h.openColumn
  | closeColumn => exact ⟨(linkedIn_empty schema).column, h.join⟩
  | editColumn draft =>
      refine ⟨fun edit hedit => ?_, h.join⟩
      obtain ⟨before, hbefore, rfl⟩ := Option.map_eq_some_iff.mp hedit
      exact h.column before hbefore
  | openJoin join => exact getD_toOption (P := (LinkedIn · schema)) h fun _ => h.openJoin
  | closeJoin => exact ⟨h.column, (linkedIn_empty schema).join⟩
  | editJoin draft =>
      refine ⟨h.column, fun edit hedit => ?_⟩
      obtain ⟨before, hbefore, rfl⟩ := Option.map_eq_some_iff.mp hedit
      exact h.join before hbefore

/-- A commit that fails leaves open what was open. -/
theorem commitJoin_eq_error {ids : IdSupply} {error : EditError}
    (h : session.commitJoin schema ids = (opened, .error error)) :
    opened.column = session.column ∧ opened.join = session.join := by
  unfold commitJoin at h
  split at h
  · obtain ⟨rfl, -⟩ := Prod.mk.inj h
    exact ⟨rfl, rfl⟩
  · split at h
    · obtain ⟨rfl, -⟩ := Prod.mk.inj h
      exact ⟨rfl, rfl⟩
    · dsimp only at h
      split at h
      · cases (Prod.mk.inj h).2
      · obtain ⟨rfl, -⟩ := Prod.mk.inj h
        exact ⟨rfl, rfl⟩

end Session

/-! ## Runs -/

/-- One thing that happens to an editor. -/
inductive Happening where
  | createTable (name : Option String)
  | apply (intent : Intent)
  | handle (gesture : Gesture)
  | draft (change : DraftChange)
  | commitColumn
  | commitJoin
  | takeDocument (source : String)
  /-- An event comes, of whatever compiler, and whatever it was asked for. -/
  | event (event : CompileEvent)

namespace Editor

/-- The editor after something has happened. -/
def meet (editor : Editor) : Happening → Editor
  | .createTable name => (editor.createTable name).1
  | .apply intent => (editor.apply intent).1
  | .handle gesture => (editor.handle gesture).1
  | .draft change => { editor with session := editor.session.change editor.schema change }
  | .commitColumn => editor.commitColumn.1
  | .commitJoin => editor.commitJoin.1
  | .takeDocument source => (editor.takeDocument source).1
  | .event event => (editor.applyCompileEvent event).1

/-- The editor after a run. -/
def meetAll (editor : Editor) (run : List Happening) : Editor := run.foldl meet editor

/-- An editor at its start: without tables, or with what a document holds. -/
inductive AtStart : Editor → Prop
  | empty (config : EditorConfig) (ids : IdSupply) : AtStart (start config ids)
  | read (config : EditorConfig) (ids : IdSupply) {source : String} {placed : Placed}
      (h : Exchange.read source = .ok placed) : AtStart (ofPlaced config placed ids)

/-- Whatever the editor keeps beside its schema is about a part of the schema. -/
structure Linked (editor : Editor) : Prop where
  schema : editor.schema.validate = .ok ()
  canvas : ∀ place ∈ editor.canvas.places, ∃ t ∈ editor.schema.tables, t.id = place.1
  session : editor.session.LinkedIn editor.schema

/-- The counts of an editor, which never decrease. -/
structure NotBefore (editor later : Editor) : Prop where
  revision : editor.revision ≤ later.revision
  appliedGeneration : editor.appliedGeneration ≤ later.appliedGeneration

variable {editor later : Editor}

/-! ## One happening -/

/-- **A replacement restores all links**, whatever they were before. -/
theorem linked_replace (editor : Editor) {next : Schema} (hv : next.Valid) :
    (editor.replace next).Linked := by
  refine ⟨Schema.validate_iff.mpr hv, fun place hplace => ?_, fun edit hopen => ?_,
    fun edit hopen => ?_⟩
  · obtain ⟨table, htable⟩ := Option.isSome_iff_exists.mp (List.mem_filter.mp hplace).2
    exact ⟨table, Schema.mem_of_table? htable⟩
  · obtain ⟨column, hlive⟩ := Option.isSome_iff_exists.mp (Option.filter_eq_some_iff.mp hopen).2
    obtain ⟨table, htable, hcolumn⟩ := Option.bind_eq_some_iff.mp hlive
    obtain ⟨hmem, hid⟩ := Schema.mem_of_table? htable
    exact ⟨table, hmem, hid, column, List.mem_of_find?_eq_some hcolumn,
      by simpa using List.find?_some hcolumn⟩
  · exact Option.isSome_iff_exists.mp (Option.filter_eq_some_iff.mp hopen).2

theorem Linked.valid (h : editor.Linked) : editor.schema.Valid := Schema.validate_iff.mp h.schema

theorem Linked.of_eq (h : editor.Linked) (hs : later.schema = editor.schema)
    (hp : later.canvas = editor.canvas) (hc : later.session.column = editor.session.column)
    (hj : later.session.join = editor.session.join) : later.Linked where
  schema := hs ▸ h.schema
  canvas := hs ▸ hp ▸ h.canvas
  session := ⟨hs ▸ hc ▸ h.session.column, hs ▸ hj ▸ h.session.join⟩

theorem Linked.report (h : editor.Linked) (error : SchemaError) : (editor.report error).Linked := by
  obtain ⟨notices, hreport⟩ := editor.report_eq error
  rw [hreport]
  exact h.of_eq rfl rfl rfl rfl

theorem Linked.openJoin (h : editor.Linked) (join : JoinId) : (editor.openJoin join).Linked := by
  unfold Editor.openJoin
  split
  · rename_i hopen
    exact ⟨h.schema, h.canvas, h.session.openJoin hopen⟩
  · exact h.report _

theorem Linked.apply (h : editor.Linked) (intent : Intent) : (editor.apply intent).1.Linked := by
  unfold Editor.apply
  split
  · rename_i happlied
    exact linked_replace _ (Schema.valid_apply h.valid happlied)
  · dsimp only
    refine Linked.report ?_ _
    exact h.of_eq rfl rfl rfl rfl

theorem Linked.createTable (h : editor.Linked) (name : Option String) :
    (editor.createTable name).1.Linked := by
  obtain ⟨wanted, hmade⟩ := editor.createTable_eq name
  rw [hmade]
  exact h.apply _

/-- A position is given only to a table that is there. -/
theorem Linked.handle (h : editor.Linked) (gesture : Gesture) :
    (editor.handle gesture).1.Linked := by
  rcases editor.handle_cases gesture with ⟨intent, -, hdone | ⟨join, -, hdone⟩⟩ |
    ⟨join, hdone⟩ | ⟨table, position, hthere, hdone⟩ | hdone <;> rw [hdone]
  · exact h.apply intent
  · exact (h.apply intent).openJoin join
  · exact h.openJoin join
  · obtain ⟨owner, howner⟩ := Option.isSome_iff_exists.mp hthere
    refine ⟨h.schema, fun place hplace => ?_, h.session⟩
    rcases List.mem_append.mp hplace with hold | hnew
    · exact h.canvas place (List.mem_filter.mp hold).1
    · cases List.mem_singleton.mp hnew
      exact ⟨owner, Schema.mem_of_table? howner⟩
  · exact h

theorem Linked.commitColumn (h : editor.Linked) : editor.commitColumn.1.Linked := by
  unfold Editor.commitColumn
  split
  · rename_i hcommitted
    obtain ⟨edit, table, current, -, -, -, hreplaced⟩ := Schema.commitColumn_eq_ok hcommitted
    exact linked_replace _ (Schema.replaceColumns_eq_ok hreplaced).1
  · exact h.report _

theorem Linked.commitJoin (h : editor.Linked) : editor.commitJoin.1.Linked := by
  obtain ⟨moved, hmoved, ⟨next, configured, hcommit, hdone⟩ | ⟨error, hcommit, hdone⟩⟩ :=
    editor.commitJoin_cases <;> rw [hdone]
  · obtain ⟨join, config, hconfigured⟩ := commitJoin_eq_ok hcommit
    exact linked_replace _ (Schema.valid_configureJoin hconfigured)
  · obtain ⟨hc, hj⟩ := Session.commitJoin_eq_error hcommit
    refine Linked.report ?_ _
    exact h.of_eq (by rw [hmoved]) (by rw [hmoved]) hc hj

theorem Linked.takeDocument (h : editor.Linked) (source : String) :
    (editor.takeDocument source).1.Linked := by
  unfold Editor.takeDocument
  split
  · rename_i hread
    exact linked_replace _ (Exchange.valid_read hread)
  · dsimp only
    exact h.report _

/-- Not even an event with a schema that is not valid breaks a link: such a schema is refused. -/
theorem Linked.applyCompileEvent (h : editor.Linked) (event : CompileEvent) :
    (editor.applyCompileEvent event).1.Linked := by
  obtain ⟨counted, hcounted, hcases⟩ := editor.applyCompileEvent_cases event
  have hlinked : counted.Linked := by
    rw [hcounted]
    exact h.of_eq rfl rfl rfl rfl
  obtain hdone | ⟨error, hdone⟩ | ⟨parsed, next, canvas, -, hreconciled, hdone⟩ := hcases <;>
    rw [hdone]
  · exact hlinked
  · exact hlinked.report error
  · exact linked_replace _ (Schema.valid_reconcile hreconciled)

/-- **One happening keeps the links.** -/
theorem Linked.meet (h : editor.Linked) (happening : Happening) :
    (editor.meet happening).Linked := by
  cases happening with
  | createTable name => exact h.createTable name
  | apply intent => exact h.apply intent
  | handle gesture => exact h.handle gesture
  | draft change => exact ⟨h.schema, h.canvas, h.session.change change⟩
  | commitColumn => exact h.commitColumn
  | commitJoin => exact h.commitJoin
  | takeDocument source => exact h.takeDocument source
  | event event => exact h.applyCompileEvent event

/-! ## Counts -/

theorem NotBefore.refl (editor : Editor) : editor.NotBefore editor :=
  ⟨Nat.le_refl _, Nat.le_refl _⟩

theorem NotBefore.trans {last : Editor} (h : editor.NotBefore later) (h' : later.NotBefore last) :
    editor.NotBefore last :=
  ⟨Nat.le_trans h.revision h'.revision, Nat.le_trans h.appliedGeneration h'.appliedGeneration⟩

theorem Edited.notBefore (h : editor.Edited later) : editor.NotBefore later := by
  refine ⟨?_, Nat.le_of_eq (congrArg (·.2.2) h.exchange).symm⟩
  rcases h.schema with ⟨hr, -⟩ | ⟨hr, -⟩
  · exact Nat.le_of_eq hr.symm
  · exact hr ▸ Nat.le_succ _

/-- An event is looked at only if its generation is greater than the last one. -/
theorem notBefore_applyCompileEvent (editor : Editor) (event : CompileEvent) :
    editor.NotBefore (editor.applyCompileEvent event).1 := by
  by_cases hle : event.generation ≤ editor.appliedGeneration
  · rw [take_stale hle]
    exact .refl editor
  · have hlt := Nat.lt_of_not_le hle
    have htook := took hlt
    refine ⟨?_, htook.appliedGeneration ▸ Nat.le_of_lt hlt⟩
    rcases htook.schema with ⟨hr, -⟩ | ⟨hr, -⟩
    · exact Nat.le_of_eq hr.symm
    · exact hr ▸ Nat.le_succ _

theorem notBefore_meet (editor : Editor) (happening : Happening) :
    editor.NotBefore (editor.meet happening) := by
  cases happening with
  | createTable name => exact (edited_createTable _ _).notBefore
  | apply intent => exact (edited_apply _ _).notBefore
  | handle gesture => exact (edited_handle _ _).notBefore
  | draft change => exact ⟨Nat.le_refl _, Nat.le_refl _⟩
  | commitColumn => exact (edited_commitColumn _).notBefore
  | commitJoin => exact (edited_commitJoin _).notBefore
  | takeDocument source => exact (edited_takeDocument _ _).notBefore
  | event event => exact notBefore_applyCompileEvent _ _

/-! ## Runs from the start -/

theorem Linked.meetAll (h : editor.Linked) (run : List Happening) : (editor.meetAll run).Linked := by
  induction run generalizing editor with
  | nil => exact h
  | cons first rest ih => exact ih (h.meet first)

theorem notBefore_meetAll (editor : Editor) (run : List Happening) :
    editor.NotBefore (editor.meetAll run) := by
  induction run generalizing editor with
  | nil => exact .refl editor
  | cons first rest ih => exact (notBefore_meet editor first).trans (ih (editor.meet first))

end Editor

/-! ## Documents -/

namespace Exchange

/-- The tables that have a position are those of the places that were filled. -/
theorem mem_places_foldl {nodes : List (TableId × Position × Table)} {canvas : Canvas}
    {place : TableId × Position}
    (h : place ∈ (nodes.foldl (fun canvas (id, position, _) => canvas.place id position)
      canvas).places) :
    place ∈ canvas.places ∨ ∃ node ∈ nodes, node.1 = place.1 := by
  induction nodes generalizing canvas with
  | nil => exact Or.inl h
  | cons first rest ih =>
      rcases ih h with hplaced | ⟨node, hnode, hid⟩
      · rcases List.mem_append.mp hplaced with hold | hnew
        · exact Or.inl (List.mem_filter.mp hold).1
        · exact Or.inr ⟨first, List.mem_cons_self, by rw [List.mem_singleton.mp hnew]⟩
      · exact Or.inr ⟨node, List.mem_cons_of_mem _ hnode, hid⟩

/-- Nodes have the ids of their tables, so no position is that of another table. -/
theorem places_readNodes {fields : Json.Record} {placed : Placed}
    (h : readNodes fields = .ok placed) :
    ∀ place ∈ placed.canvas.places, ∃ t ∈ placed.schema.tables, t.id = place.1 := by
  obtain ⟨nodes, -, h⟩ := bind_eq_ok.mp h
  obtain ⟨edges, -, h⟩ := bind_eq_ok.mp h
  split at h
  · cases h
  · rename_i hhome
    cases h
    intro place hplace
    rcases mem_places_foldl hplace with hnone | ⟨node, hnode, hid⟩
    · exact absurd hnone List.not_mem_nil
    · refine ⟨node.2.2, List.mem_map_of_mem hnode, ?_⟩
      have hsame : node.1 = node.2.2.id := by simpa using List.find?_eq_none.mp hhome node hnode
      exact hsame.symm.trans hid

theorem places_readTables {fields : Json.Record} {placed : Placed}
    (h : readTables fields = .ok placed) : placed.canvas.places = [] := by
  obtain ⟨tables, -, h⟩ := bind_eq_ok.mp h
  obtain ⟨joins, -, h⟩ := bind_eq_ok.mp h
  dsimp only at h
  split at h
  · cases h
  · cases h
    rfl

theorem places_readPlaced {document : Json} {placed : Placed}
    (h : readPlaced document = .ok placed) :
    ∀ place ∈ placed.canvas.places, ∃ t ∈ placed.schema.tables, t.id = place.1 := by
  unfold readPlaced at h
  dsimp only at h
  split at h
  · split at h
    · rw [places_readTables h]
      exact fun place hplace => absurd hplace List.not_mem_nil
    · split at h
      · exact places_readNodes h
      · cases h
  · cases h

/-- Every position that a document gives is that of a table. -/
theorem places_read {source : String} {placed : Placed}
    (h : Exchange.read source = .ok placed) :
    ∀ place ∈ placed.canvas.places, ∃ t ∈ placed.schema.tables, t.id = place.1 := by
  obtain ⟨json, -, h⟩ := bind_eq_ok.mp h
  obtain ⟨found, hfound, h⟩ := bind_eq_ok.mp h
  have hsame : found = placed := by
    split at h
    · exact Except.ok.inj h
    · cases h
  rw [hsame] at hfound
  exact places_readPlaced hfound

end Exchange

namespace Editor

/-- Nothing is open at the start. -/
theorem AtStart.linked {editor : Editor} (h : editor.AtStart) : editor.Linked := by
  cases h with
  | empty config ids =>
      exact ⟨Schema.validate_iff.mpr Schema.valid_empty,
        fun place hplace => absurd hplace List.not_mem_nil, Session.linkedIn_empty _⟩
  | read config ids h =>
      exact ⟨Schema.validate_iff.mpr (Exchange.valid_read h), Exchange.places_read h,
        Session.linkedIn_empty _⟩

/-- **Everything that an editor keeps belongs to its schema, at every moment of every run**, and its
counts never decrease from one moment to a later one. -/
theorem linked_run {editor : Editor} (h : editor.AtStart) (run further : List Happening) :
    (editor.meetAll run).Linked ∧
      (editor.meetAll run).NotBefore (editor.meetAll (run ++ further)) := by
  refine ⟨h.linked.meetAll run, ?_⟩
  rw [meetAll, meetAll, List.foldl_append]
  exact notBefore_meetAll _ further

/-- A table is made and gets a position, and the draft of its key is opened and renamed. -/
def openingRun : List Happening :=
  [.createTable (some "A"), .draft (.openColumn ⟨"a000000000000"⟩ ⟨"a000000000001"⟩),
    .draft (.editColumn (.plain ⟨"other"⟩ ⟨"a000000000000"⟩ "key"))]

/-- A position is there and a draft is open, until the table is deleted. -/
theorem openingRun_links :
    let editor := start .usual ⟨"a", 0⟩
    let deleted : List Happening := [.apply (.deleteTable ⟨"a000000000000"⟩)]
    ((editor.meetAll openingRun).canvas.size = 1 ∧
      (editor.meetAll openingRun).session.column.map (·.draft.name) = some "key") ∧
    ((editor.meetAll (openingRun ++ deleted)).canvas = .empty ∧
      (editor.meetAll (openingRun ++ deleted)).session = .empty) ∧
    (editor.meetAll openingRun).Linked ∧
      (editor.meetAll openingRun).NotBefore (editor.meetAll (openingRun ++ deleted)) :=
  ⟨by decide +kernel, by decide +kernel, linked_run (.empty _ _) openingRun _⟩

end Editor

end ErModel
