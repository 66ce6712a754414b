import ErModel.Proofs.LatestSchema

/-!
# What becomes of a schema that was handed over

The editor hands a revision of its schema over once, and waits for the text. The worker keeps the
latest request only, so an edited text that is submitted meanwhile takes the place of that revision.
Nothing is lost if the edited text compiles: then its schema takes over, and that is a new revision.
So there is one way to lose a revision, and it takes an edited text that does not compile.

That there is no other is an invariant of all runs. The schema is valid at every moment, so writing
it as text cannot fail; the latest request is somewhere, either open or answered; a text of the
schema that stands is the source from the moment that the editor gets it; and a parsed schema that
the editor has got is one of an older revision.
-/

namespace ErModel

/-- Nothing waits, nothing runs, and all that was delivered has been taken. -/
structure Worker.Idle (worker : Worker) : Prop where
  waiting : worker.waiting = none
  running : worker.running = []
  delivered : worker.delivered = []

namespace Workspace

variable {space : Workspace} {acts : List Act}

/-- The ids of a schema that was parsed are new when it reaches the editor. -/
def ParsesFresh (space : Workspace) (acts : List Act) : Prop :=
  ∀ n generation revision parsed, space.Delivers acts n (.parsed generation revision parsed) →
    parsed.FreshFor (space.moment acts n).editor.schema

/-- The latest request of a run is an edited text, submitted after the revision that stands was
handed over. The text does not compile, and that is the last that the editor has heard; it never got
a text of that revision. -/
def Overtaken (space : Workspace) (acts : List Act) : Prop :=
  ∃ n source ids rest error,
    acts[n]? = some (.submitSource source) ∧
    (space.moment acts n).editor.submitted = some (space.perform acts).editor.revision ∧
    (space.moment acts n).worker.generation + 1 = (space.perform acts).worker.generation ∧
    Source.compile source ids = (.error error, rest) ∧
    (space.deliveries acts).getLast? =
      some (.failed (space.perform acts).worker.generation error) ∧
    ∀ generation text,
      .source generation (space.perform acts).editor.revision text ∉ space.deliveries acts

/-! ## The schema is valid -/

/-- What a delivery does: nothing, or the editor looks at an event. -/
theorem step_deliver_cases (space : Workspace) : (space.step .deliver).editor = space.editor ∨
    ∃ event ∈ space.worker.delivered, space.editor.Took (space.step .deliver).editor event := by
  unfold step
  dsimp only
  cases hd : space.worker.delivered with
  | nil => exact Or.inl rfl
  | cons event rest =>
      by_cases hstale : event.generation ≤ space.editor.appliedGeneration
      · exact Or.inl (Editor.take_stale hstale)
      · exact Or.inr ⟨event, List.mem_cons_self, Editor.took (Nat.lt_of_not_le hstale)⟩

/-- **Every act leaves the schema valid.** -/
theorem valid_step (space : Workspace) (act : Act) (hv : space.editor.schema.Valid) :
    (space.step act).editor.schema.Valid := by
  by_cases hsync : act = .sync
  · subst hsync
    cases hrequest : space.request? .sync with
    | none =>
        rw [(sync_of_none hrequest).2]
        exact hv
    | some request =>
        rw [(sync_of_some hrequest).2]
        exact hv
  by_cases hdeliver : act = .deliver
  · subst hdeliver
    rcases space.step_deliver_cases with hsame | ⟨event, -, htook⟩
    · rw [hsame]
      exact hv
    · rcases htook.schema with ⟨-, hs⟩ | ⟨-, hvalid⟩
      · rw [hs]
        exact hv
      · exact hvalid
  rcases (space.edited_step hsync hdeliver).schema with ⟨-, hs⟩ | ⟨-, hvalid⟩
  · rw [hs]
    exact hv
  · exact hvalid hv

theorem valid_perform (space : Workspace) (acts : List Act) (hv : space.editor.schema.Valid) :
    (space.perform acts).editor.schema.Valid := by
  induction acts using List.reverseRecOn with
  | nil => exact hv
  | append_singleton acts act ih =>
      rw [perform_concat]
      exact valid_step _ _ ih

theorem valid_moment (hv : space.editor.schema.Valid) (acts : List Act) (n : Nat) :
    (space.moment acts n).editor.schema.Valid := valid_perform space (acts.take n) hv

/-! ## The latest request -/

/-- The latest request, if there is one, is open or has been answered. -/
def Accounted (space : Workspace) (acts : List Act) : Prop :=
  (space.perform acts).worker.generation = 0 ∨
    (space.perform acts).worker.generation ∈ (space.perform acts).worker.openGenerations ∨
    ∃ e ∈ space.sent acts, e.generation = (space.perform acts).worker.generation

theorem Accounted.concat_of_eq (h : space.Accounted acts) {act : Act}
    (hg : (space.perform (acts ++ [act])).worker.generation =
      (space.perform acts).worker.generation)
    (ho : (space.perform (acts ++ [act])).worker.openGenerations.Perm
      (space.perform acts).worker.openGenerations)
    (hs : space.sent (acts ++ [act]) = space.sent acts) : space.Accounted (acts ++ [act]) := by
  rw [Accounted, hg, ho.mem_iff, hs]
  exact h

theorem Accounted.concat_complete (h : space.Accounted acts) (place : Nat) :
    space.Accounted (acts ++ [.complete place]) := by
  have hworker : (space.perform (acts ++ [.complete place])).worker =
      (space.perform acts).worker.complete place := by
    rw [perform_concat]
    rfl
  have hsent : space.sent (acts ++ [.complete place]) =
      space.deliveries acts ++ ((space.perform acts).worker.complete place).delivered := by
    rw [sent, deliveries_concat_of_ne _ _ (by simp), hworker]
  rw [Accounted, hsent, hworker, Worker.generation_complete]
  cases hd : (space.perform acts).worker.running[place]? with
  | none =>
      have hsame : (space.perform acts).worker.complete place = (space.perform acts).worker := by
        rw [Worker.complete, hd]
      rw [hsame]
      exact h
  | some done =>
      have hdelivered : ((space.perform acts).worker.complete place).delivered =
          if done.event.generation = (space.perform acts).worker.generation then
            (space.perform acts).worker.delivered ++ [done.event]
          else (space.perform acts).worker.delivered := by
        rw [Worker.complete, hd]
      rw [hdelivered]
      rcases h with h | h | ⟨e, he, hg⟩
      · exact Or.inl h
      · rw [(Worker.openGenerations_complete hd).mem_iff, List.mem_cons] at h
        rcases h with h | h
        · -- the latest request is the one that is answered now
          refine Or.inr (Or.inr ⟨done.event, ?_, h.symm⟩)
          rw [if_pos h.symm]
          exact List.mem_append_right _ (List.mem_append_right _ List.mem_cons_self)
        · exact Or.inr (Or.inl h)
      · refine Or.inr (Or.inr ⟨e, ?_, hg⟩)
        rcases List.mem_append.mp he with he | he
        · exact List.mem_append_left _ he
        · refine List.mem_append_right _ ?_
          split
          · exact List.mem_append_left _ he
          · exact he

theorem Accounted.concat (h : space.Accounted acts) (act : Act) :
    space.Accounted (acts ++ [act]) := by
  have hp := perform_concat space acts act
  cases hrequest : (space.perform acts).request? act with
  | some request =>
      -- a request that is handed over waits
      refine Or.inr (Or.inl ?_)
      rw [hp, step_worker_of_request hrequest, Worker.openGenerations_submit]
      exact List.mem_cons_self
  | none =>
      have hg := hp ▸ generation_step hrequest
      cases act with
      | createTable | apply | handle | commitColumn | commitJoin | takeDocument | draft
        | takeNotices | elapse =>
          exact h.concat_of_eq hg (by rw [hp]; exact .refl _)
            (sent_concat (by simp) (by rw [hp]; rfl))
      | sync =>
          have hstep := (sync_of_none hrequest).2
          exact h.concat_of_eq hg (by rw [hp, hstep])
            (sent_concat (by simp) (by rw [hp, hstep]))
      | submitSource source => cases hrequest
      | expire =>
          refine h.concat_of_eq hg ?_ (sent_concat (by simp) ?_)
          · rw [hp]
            exact Worker.openGenerations_expire _
          · rw [hp]
            exact Worker.delivered_expire _
      | complete place => exact h.concat_complete place
      | deliver =>
          refine h.concat_of_eq hg ?_ (sent_concat_deliver space acts)
          rw [hp, step]
          split <;> exact .refl _

theorem accounted_perform (config : EditorConfig) (placed : Placed)
    (editorIds workerIds : IdSupply) (debounce duration : Nat) (acts : List Act) :
    (start config placed editorIds debounce duration workerIds).Accounted acts := by
  induction acts using List.reverseRecOn with
  | nil => exact Or.inl rfl
  | append_singleton acts act ih => exact ih.concat act

/-! ## The revision that was handed over -/

/-- An act that hands nothing over leaves the revision that was handed over last. -/
theorem submitted_step {act : Act} (h : space.request? act = none) :
    (space.step act).editor.submitted = space.editor.submitted := by
  by_cases hsync : act = .sync
  · subst hsync
    rw [(sync_of_none h).2]
  by_cases hdeliver : act = .deliver
  · subst hdeliver
    rcases space.step_deliver_cases with hsame | ⟨event, -, htook⟩
    · rw [hsame]
    · exact htook.submitted
  exact congrArg (·.2.1) (space.edited_step hsync hdeliver).exchange

/-- While no request is made, the revision that was handed over last stays. -/
theorem submitted_perform (space : Workspace) (acts : List Act)
    (hg : (space.perform acts).worker.generation = space.worker.generation) :
    (space.perform acts).editor.submitted = space.editor.submitted := by
  induction acts using List.reverseRecOn with
  | nil => rfl
  | append_singleton acts act ih =>
      rw [perform_concat] at hg ⊢
      have hbefore := generation_perform_le space acts
      have hstep := generation_step_le (space.perform acts) act
      cases hrequest : (space.perform acts).request? act with
      | some request =>
          rw [step_worker_of_request hrequest] at hg
          have : (space.perform acts).worker.generation + 1 = space.worker.generation := hg
          omega
      | none => rw [submitted_step hrequest, ih (by omega)]

/-- A revision that was handed over was reached, and a request was made for it. -/
def HandedOver (space : Workspace) : Prop :=
  ∀ revision, space.editor.submitted = some revision →
    revision ≤ space.editor.revision ∧ 0 < space.worker.generation

theorem HandedOver.step (h : space.HandedOver) (act : Act) : (space.step act).HandedOver := by
  intro revision hs
  cases hrequest : space.request? act with
  | none =>
      rw [submitted_step hrequest] at hs
      rw [generation_step hrequest]
      exact ⟨Nat.le_trans (h revision hs).1 (before_step space act).revision_le, (h revision hs).2⟩
  | some request =>
      refine ⟨?_, by rw [step_worker_of_request hrequest]; exact Nat.succ_pos _⟩
      cases act with
      | sync =>
          rw [(sync_of_some hrequest).2] at hs ⊢
          exact Nat.le_of_eq (Option.some.inj hs).symm
      | submitSource source => exact (h revision hs).1
      | _ => cases hrequest

theorem HandedOver.perform (h : space.HandedOver) (acts : List Act) :
    (space.perform acts).HandedOver := by
  induction acts using List.reverseRecOn with
  | nil => exact h
  | append_singleton acts act ih =>
      rw [perform_concat]
      exact ih.step act

theorem handedOver_start (config : EditorConfig) (placed : Placed)
    (editorIds workerIds : IdSupply) (debounce duration : Nat) :
    (start config placed editorIds debounce duration workerIds).HandedOver := nofun

/-! ## What the editor has heard -/

/-- What follows from the events that the editor has got. -/
structure Heard (space : Workspace) (acts : List Act) : Prop where
  /-- The last event that was looked at is one of them. -/
  applied : (space.perform acts).editor.appliedGeneration = 0 ∨ ∃ e ∈ space.deliveries acts,
    e.generation = (space.perform acts).editor.appliedGeneration
  /-- A text of the schema that stands is the source. -/
  current : ∀ generation text,
    .source generation (space.perform acts).editor.revision text ∈ space.deliveries acts →
    (space.perform acts).editor.source = some (Source.textOf (space.perform acts).editor.schema)
  /-- A parsed schema is one of an older revision. -/
  parsed : ∀ generation revision parsed,
    .parsed generation revision parsed ∈ space.deliveries acts →
      revision < (space.perform acts).editor.revision

/-- Only a delivery changes what the editor has heard. -/
theorem heard_step {act : Act} (h : act ≠ .deliver) :
    (space.step act).editor.source = space.editor.source ∧
      (space.step act).editor.appliedGeneration = space.editor.appliedGeneration := by
  by_cases hsync : act = .sync
  · subst hsync
    cases hrequest : space.request? .sync with
    | none =>
        rw [(sync_of_none hrequest).2]
        exact ⟨rfl, rfl⟩
    | some request =>
        rw [(sync_of_some hrequest).2]
        exact ⟨rfl, rfl⟩
  have hexchange := (space.edited_step hsync h).exchange
  exact ⟨congrArg (·.1) hexchange, congrArg (·.2.2) hexchange⟩

theorem Heard.concat_of_ne (h : space.Heard acts) (ho : space.Origins acts) {act : Act}
    (hact : act ≠ .deliver) : space.Heard (acts ++ [act]) := by
  have hb := before_step (space.perform acts) act
  have hheard : ((space.perform acts).step act).editor.source = _ ∧ _ := heard_step hact
  obtain ⟨hsource, happlied⟩ := hheard
  rw [← perform_concat] at hb hsource happlied
  refine ⟨?_, fun generation text he => ?_, fun generation revision parsed he => ?_⟩
  · rw [deliveries_concat_of_ne _ _ hact, happlied]
    exact h.applied
  · rw [deliveries_concat_of_ne _ _ hact] at he
    -- the event knew no newer schema than the one that stood
    have hrevision := (ho.sent _ (List.mem_append_left _ he)).eventTrue.1
    have hsame := Nat.le_antisymm hb.revision_le hrevision
    rw [hsource, hb.schema_eq hrevision]
    exact h.current generation text (hsame ▸ he)
  · rw [deliveries_concat_of_ne _ _ hact] at he
    exact Nat.lt_of_lt_of_le (h.parsed generation revision parsed he) hb.revision_le

/-- The event that an act delivers is looked at, since it is newer than those before it. -/
theorem Heard.took (h : space.Heard acts) (ho : space.Origins acts)
    (hn : (space.perform acts).worker.Orderly (space.deliveries acts)) {event : CompileEvent}
    (hd : (space.perform acts).delivery? .deliver = some event) :
    (space.perform acts).editor.Took ((space.perform acts).step .deliver).editor event := by
  have hmem := (mem_delivered_of_delivery? hd).2
  rw [step_deliver hd]
  refine Editor.took ?_
  rcases h.applied with hzero | ⟨e, he, hg⟩
  · obtain ⟨n, request, ids, hrequest, -⟩ := ho.sent event (List.mem_append_right _ hmem)
    rw [hzero, ← hrequest.next]
    exact Nat.succ_pos _
  · rw [← hg]
    exact (List.pairwise_append.mp hn.increasing).2.2 e he event hmem

theorem Heard.concat_deliver (h : space.Heard acts) (ho : space.Origins acts)
    (hn : (space.perform acts).worker.Orderly (space.deliveries acts))
    (hv : space.editor.schema.Valid) {event : CompileEvent}
    (hd : (space.perform acts).delivery? .deliver = some event)
    (hf : ∀ generation revision parsed, event = .parsed generation revision parsed →
      parsed.FreshFor (space.perform acts).editor.schema) :
    space.Heard (acts ++ [.deliver]) := by
  have htook := h.took ho hn hd
  have hmem := (mem_delivered_of_delivery? hd).2
  have hb := before_step (space.perform acts) .deliver
  rw [← perform_concat] at htook hb
  have hdeliveries : space.deliveries (acts ++ [.deliver]) = space.deliveries acts ++ [event] := by
    rw [deliveries_concat, hd]
    rfl
  have htrue : ∀ e ∈ space.deliveries acts ++ [event], space.EventTrue acts e := by
    intro e he
    refine (ho.sent e ?_).eventTrue
    rcases List.mem_append.mp he with he | he
    · exact List.mem_append_left _ he
    · exact List.mem_append_right _ (List.mem_singleton.mp he ▸ hmem)
  refine ⟨Or.inr ⟨event, ?_, htook.appliedGeneration.symm⟩, fun generation text he => ?_,
    fun generation revision parsed he => ?_⟩
  · rw [hdeliveries]
    exact List.mem_append_right _ List.mem_cons_self
  · -- the event knew no newer schema than the one that stood, so that one stands still
    rw [hdeliveries] at he
    obtain ⟨hrevision, htext⟩ := htrue _ he
    have hsame := Nat.le_antisymm hb.revision_le hrevision
    rw [hb.schema_eq hrevision, htook.source]
    rcases List.mem_append.mp he with he | he
    · have hold := h.current generation text (hsame ▸ he)
      cases event with
      | source generation' revision' text' =>
          rw [Editor.sourceAfter]
          split
          · exact hold
          · rename_i hle
            have hnew := htrue _ (List.mem_append_right _ List.mem_cons_self)
            rw [hnew.2 (Nat.le_of_not_lt hle)]
      | parsed | failed => exact hold
    · rw [← List.mem_singleton.mp he, Editor.sourceAfter,
        if_neg (Nat.not_lt_of_le (Nat.le_of_eq hsame)), htext (Nat.le_of_eq hsame)]
  · rw [hdeliveries] at he
    rcases List.mem_append.mp he with he | he
    · exact Nat.lt_of_lt_of_le (h.parsed generation revision parsed he) hb.revision_le
    · obtain rfl := List.mem_singleton.mp he
      obtain ⟨source, ids, rest, ⟨n, -, -, hsubmitted⟩, hcompile⟩ :=
        htrue _ (List.mem_append_right _ List.mem_cons_self)
      have hreached := (before_moment_perform space acts n).revision_le
      by_cases hr : revision = (space.perform acts).editor.revision
      · -- the schema that it was parsed for stands, and so it is replaced
        have hvalid := valid_perform space acts hv
        obtain ⟨names, next, canvas, hnext⟩ := Schema.reconcile_renames
          (Schema.validate_iff.mpr hvalid) hcompile (hf _ _ _ rfl)
          (space.perform acts).editor.canvas (space.perform acts).editor.config.positionStep
        have := htook.parsed generation parsed next canvas (by rw [hr]) hnext.result
        omega
      · have := hb.revision_le
        omega

theorem ParsesFresh.of_append {more : List Act} (h : space.ParsesFresh (acts ++ more)) :
    space.ParsesFresh acts := by
  rintro n generation revision parsed ⟨act, hact, hd⟩
  have hlt := (List.getElem?_eq_some_iff.mp hact).1
  have hmoment := moment_append space acts more (Nat.le_of_lt hlt)
  refine hmoment ▸ h n generation revision parsed ⟨act, ?_, hmoment ▸ hd⟩
  rw [List.getElem?_append_left hlt, hact]

theorem Heard.concat_of_none (h : space.Heard acts)
    (hd : (space.perform acts).delivery? .deliver = none) : space.Heard (acts ++ [.deliver]) := by
  have hnil : (space.perform acts).worker.delivered = [] := List.head?_eq_none_iff.mp hd
  have hperform : space.perform (acts ++ [.deliver]) = space.perform acts := by
    rw [perform_concat, step, hnil]
  have hdeliveries : space.deliveries (acts ++ [.deliver]) = space.deliveries acts := by
    rw [deliveries_concat, hd, Option.toList_none, List.append_nil]
  refine ⟨?_, ?_, ?_⟩
  · rw [hdeliveries, hperform]
    exact h.applied
  · rw [hdeliveries, hperform]
    exact h.current
  · rw [hdeliveries, hperform]
    exact h.parsed

/-- **Whatever happens next, the editor hears what it has to.** -/
theorem Heard.concat (h : space.Heard acts) (ho : space.Origins acts)
    (hn : (space.perform acts).worker.Orderly (space.deliveries acts))
    (hv : space.editor.schema.Valid) {act : Act} (hf : space.ParsesFresh (acts ++ [act])) :
    space.Heard (acts ++ [act]) := by
  by_cases hact : act = .deliver
  · subst hact
    cases hd : (space.perform acts).delivery? .deliver with
    | none => exact h.concat_of_none hd
    | some event =>
        refine h.concat_deliver ho hn hv hd ?_
        rintro generation revision parsed rfl
        have hmoment := moment_length space acts [.deliver]
        refine hmoment ▸ hf acts.length generation revision parsed ⟨.deliver, ?_, hmoment ▸ hd⟩
        rw [List.getElem?_append_right (Nat.le_refl _), Nat.sub_self]
        rfl
  · exact h.concat_of_ne ho hact

theorem heard_perform (config : EditorConfig) (placed : Placed)
    (editorIds workerIds : IdSupply) (debounce duration : Nat) (acts : List Act)
    (hv : placed.schema.Valid)
    (hf : (start config placed editorIds debounce duration workerIds).ParsesFresh acts) :
    (start config placed editorIds debounce duration workerIds).Heard acts := by
  induction acts using List.reverseRecOn with
  | nil => exact ⟨Or.inl rfl, nofun, nofun⟩
  | append_singleton acts act ih =>
      have horigins := origins_perform config placed editorIds workerIds debounce duration acts
      have horderly := orderly_perform config placed editorIds workerIds debounce duration acts
      exact (ih hf.of_append).concat horigins horderly hv hf

/-! ## The schema that was handed over -/

theorem sync_eq_none {editor : Editor} {worker : Worker} :
    (editor.sync worker).2.2 = none ↔ editor.submitted = some editor.revision := by
  unfold Editor.sync
  split
  · rename_i h
    exact ⟨fun _ => h, fun _ => rfl⟩
  · rename_i h
    exact ⟨nofun, fun hs => absurd hs h⟩

/-- A valid schema is written as text without fail. -/
theorem run_serialize {schema : Schema} (hv : schema.Valid) (revision generation : Nat)
    (ids : IdSupply) : ((CompileRequest.serialize revision schema).run generation ids).1 =
      .source generation revision (Source.textOf schema) := by
  have htext : Source.textOfValid schema = .ok (Source.textOf schema) := by
    rw [Source.textOfValid, Schema.validate_iff.mpr hv]
  simp only [CompileRequest.run, htext]

/-- The event that answers the latest request is the last one. -/
theorem getLast?_deliveries {taken : List CompileEvent} {worker : Worker}
    (h : worker.Orderly taken) {e : CompileEvent} (he : e ∈ taken)
    (hg : e.generation = worker.generation) : taken.getLast? = some e := by
  obtain ⟨before, behind, rfl⟩ := List.append_of_mem he
  cases behind with
  | nil => exact List.getLast?_concat
  | cons next rest =>
      have hlt : e.generation < next.generation := by
        have := (List.pairwise_append.mp h.increasing).1
        have := (List.pairwise_append.mp this).2.1
        exact (List.pairwise_cons.mp this).1 next List.mem_cons_self
      have hle := h.sent_le next (List.mem_append_left _ (by simp))
      omega

/-- Since the latest request nothing was handed over. -/
theorem Requests.submitted_since {n : Nat} {request : CompileRequest}
    (h : space.Requests acts n (space.perform acts).worker.generation request) :
    (space.perform acts).editor.submitted = (space.moment acts (n + 1)).editor.submitted := by
  have hperform := perform_eq space acts (n + 1)
  rw [hperform]
  refine submitted_perform _ _ ?_
  rw [← hperform, h.generation_succ]

/-- Once the worker is idle, its latest request was answered, and the answer is the last event that
the editor got. -/
theorem answered_when_idle (config : EditorConfig) (placed : Placed)
    (editorIds workerIds : IdSupply) (debounce duration : Nat) (acts : List Act) :
    let space := start config placed editorIds debounce duration workerIds
    let now := space.perform acts
    now.worker.Idle → 0 < now.worker.generation →
      ∃ n request ids, space.Requests acts n now.worker.generation request ∧
        (request.run now.worker.generation ids).1 ∈ space.deliveries acts ∧
        (space.deliveries acts).getLast? = some (request.run now.worker.generation ids).1 := by
  intro space now hidle hpos
  have hsent : space.sent acts = space.deliveries acts := by
    rw [sent, hidle.delivered, List.append_nil]
  have hopen : now.worker.openGenerations = [] := by
    rw [Worker.openGenerations, hidle.waiting, hidle.running]
    rfl
  obtain ⟨e, he, hg⟩ : ∃ e ∈ space.deliveries acts, e.generation = now.worker.generation := by
    rcases accounted_perform config placed editorIds workerIds debounce duration acts with
      hzero | hmem | hanswered
    · exact absurd hzero (Nat.ne_of_gt hpos)
    · rw [hopen] at hmem
      cases hmem
    · exact hsent ▸ hanswered
  have horigins := origins_perform config placed editorIds workerIds debounce duration acts
  obtain ⟨n, request, ids, hrequest, hevent⟩ := horigins.sent e (hsent.symm ▸ he)
  have hlast := getLast?_deliveries
    (orderly_perform config placed editorIds workerIds debounce duration acts) he hg
  rw [hg] at hrequest hevent
  exact ⟨n, request, ids, hrequest, hevent ▸ he, hevent ▸ hlast⟩

/-- **A schema that was handed over is the source, unless an edited text has overtaken it.**
Whenever the worker is idle and the editor has nothing to hand over, the source is the text of the
schema that stands, or else a text that does not compile was the last that was submitted. -/
theorem source_when_idle (config : EditorConfig) (placed : Placed)
    (editorIds workerIds : IdSupply) (debounce duration : Nat) (acts : List Act)
    (hv : placed.schema.validate = .ok ())
    (hf : (start config placed editorIds debounce duration workerIds).ParsesFresh acts) :
    let space := start config placed editorIds debounce duration workerIds
    let now := space.perform acts
    now.worker.Idle → (now.editor.sync now.worker).2.2 = none →
      now.editor.source = some (Source.textOf now.editor.schema) ∨ space.Overtaken acts := by
  intro space now hidle hsync
  rw [sync_eq_none] at hsync
  have hvalid := Schema.validate_iff.mp hv
  have hheard := heard_perform config placed editorIds workerIds debounce duration acts hvalid hf
  have hhanded := handedOver_start config placed editorIds workerIds debounce duration
  have hpos := (hhanded.perform acts _ hsync).2
  obtain ⟨n, request, ids, hrequest, hevent, hlast⟩ :=
    answered_when_idle config placed editorIds workerIds debounce duration acts hidle hpos
  have hsubmitted := hrequest.submitted_since
  obtain ⟨⟨act, hact, hrequest⟩, hnext⟩ := hrequest
  rw [moment_succ space hact] at hsubmitted
  cases act with
  | sync =>
      -- the schema itself was handed over, so its text is the answer
      obtain ⟨rfl, hstep⟩ := sync_of_some hrequest
      rw [hstep, hsync] at hsubmitted
      have hrevision : now.editor.revision = (space.moment acts n).editor.revision :=
        Option.some.inj hsubmitted
      rw [Editor.serializeRequest, run_serialize (valid_moment hvalid acts n),
        ← hrevision] at hevent
      exact Or.inl (hheard.current _ _ hevent)
  | submitSource source =>
      obtain rfl := Option.some.inj hrequest
      have hbefore : (space.moment acts n).editor.submitted = some now.editor.revision :=
        hsubmitted.symm.trans hsync
      -- the text was submitted for the schema that stands
      have hrevision : (space.moment acts n).editor.revision = now.editor.revision :=
        Nat.le_antisymm (before_moment_perform space acts n).revision_le
          (hhanded.perform (acts.take n) _ hbefore).1
      rw [Editor.parseRequest, CompileRequest.run] at hevent hlast
      cases hcompile : Source.compile source ids with
      | mk result rest =>
          rw [hcompile] at hevent hlast
          cases result with
          | ok parsed =>
              -- its schema would have taken over
              exact absurd hrevision (Nat.ne_of_lt (hheard.parsed _ _ _ hevent))
          | error error =>
              by_cases hgot : ∃ generation text,
                  .source generation now.editor.revision text ∈ space.deliveries acts
              · obtain ⟨generation, text, hmem⟩ := hgot
                exact Or.inl (hheard.current generation text hmem)
              · exact Or.inr ⟨n, source, ids, rest, error, hact, hbefore, hnext, hcompile, hlast,
                  fun generation text hmem => hgot ⟨generation, text, hmem⟩⟩
  | _ => cases hrequest

/-- After the typical run the worker is idle and nothing is to be handed over. -/
theorem typicalRun_handed_over :
    (typicalStart.perform typicalRun).worker.Idle ∧
    ((typicalStart.perform typicalRun).editor.sync
      (typicalStart.perform typicalRun).worker).2.2 = none ∧
    (typicalStart.perform typicalRun).editor.source =
      some (Source.textOf (typicalStart.perform typicalRun).editor.schema) := by
  have hidle : (typicalStart.perform typicalRun).worker.Idle :=
    ⟨by decide +kernel, by decide +kernel, by decide +kernel⟩
  have hsync : ((typicalStart.perform typicalRun).editor.sync
      (typicalStart.perform typicalRun).worker).2.2 = none := by decide +kernel
  have hfresh : typicalStart.ParsesFresh typicalRun := by
    rintro n generation revision parsed ⟨act, hact, hd⟩
    obtain ⟨rfl, -⟩ := mem_delivered_of_delivery? hd
    have hplace : n = 3 ∨ n = 7 := by
      rcases n with _ | _ | _ | _ | _ | _ | _ | _ | n <;> simp [typicalRun] at hact ⊢
    rcases hplace with rfl | rfl
    · -- the first delivery finds no tables
      have hempty : (typicalStart.moment typicalRun 3).editor.schema = .empty := by decide +kernel
      rw [hempty]
      exact ⟨fun _ _ _ h => absurd h List.not_mem_nil,
        fun _ _ _ _ _ h => absurd h List.not_mem_nil⟩
    · have htext : (typicalStart.moment typicalRun 7).delivery? .deliver =
          some (.source 2 1 "entity A \x7b\n    id uuid pk\n\x7d\n") := by decide +kernel
      exact absurd (htext.symm.trans hd) (by simp)
  refine ⟨hidle, hsync, ?_⟩
  rcases source_when_idle .usual ⟨.empty, .empty⟩ ⟨"a", 0⟩ ⟨"b", 0⟩ 500 0 typicalRun rfl hfresh
    hidle hsync with hsource | ⟨n, source, ids, rest, error, -, -, -, -, hlast, -⟩
  · exact hsource
  · -- the last that was delivered is a text
    have htext : (typicalStart.deliveries typicalRun).getLast? =
        some (.source 2 1 "entity A \x7b\n    id uuid pk\n\x7d\n") := by decide +kernel
    exact absurd (htext.symm.trans hlast) (by simp)

/-- An edited text that is no schema is submitted while the first schema waits to be written. -/
def overtakingRun : List Act :=
  [.createTable (some "A"), .sync, .submitSource "entity", .expire, .complete 0, .deliver]

/-- The schema was handed over, the worker is idle, and there is no text. -/
theorem overtakingRun_without_text :
    (typicalStart.perform overtakingRun).worker.Idle ∧
    ((typicalStart.perform overtakingRun).editor.sync
      (typicalStart.perform overtakingRun).worker).2.2 = none ∧
    (typicalStart.perform overtakingRun).editor.source ≠
      some (Source.textOf (typicalStart.perform overtakingRun).editor.schema) :=
  ⟨⟨by decide +kernel, by decide +kernel, by decide +kernel⟩, by decide +kernel,
    by decide +kernel⟩

end Workspace

end ErModel
