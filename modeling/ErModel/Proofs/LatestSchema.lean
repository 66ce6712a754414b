import ErModel.Proofs.EditorSteps
import ErModel.Proofs.Requests

/-!
# The latest schema stands

Two counters keep an old result of the compiler from undoing a newer edit. The editor counts how
often its schema was replaced, and a request takes that revision along; the worker counts requests,
and an event takes the generation of its request along. The editor looks at the revision when an
event is delivered, the worker at the generation when a compile ends.

One invariant of all runs ties the two together. Every request that waits, every compile under way
and every event that is delivered says something true about the past: a text is the one of a schema
that stood at its revision, and a parsed schema goes back to a text that was submitted at its
revision. And the generations of the events that were ever delivered increase, because a compile
delivers only while no other request has been made, and no request is compiled twice.
-/

namespace ErModel

namespace Editor

/-- One moment of an editor comes after another: the schema is the same, or it was replaced. -/
def Before (editor later : Editor) : Prop :=
  (later.revision = editor.revision ∧ later.schema = editor.schema) ∨
    editor.revision < later.revision

theorem Before.refl (editor : Editor) : editor.Before editor := Or.inl ⟨rfl, rfl⟩

theorem Before.trans {a b c : Editor} (h₁ : a.Before b) (h₂ : b.Before c) : a.Before c := by
  rcases h₁ with ⟨hr₁, hs₁⟩ | h₁
  · rcases h₂ with ⟨hr₂, hs₂⟩ | h₂
    · exact Or.inl ⟨hr₂.trans hr₁, hs₂.trans hs₁⟩
    · exact Or.inr (hr₁ ▸ h₂)
  · rcases h₂ with ⟨hr₂, -⟩ | h₂
    · exact Or.inr (hr₂ ▸ h₁)
    · exact Or.inr (Nat.lt_trans h₁ h₂)

theorem Before.revision_le {a b : Editor} (h : a.Before b) : a.revision ≤ b.revision := by
  rcases h with ⟨h, -⟩ | h <;> omega

theorem Before.schema_eq {a b : Editor} (h : a.Before b) (hr : b.revision ≤ a.revision) :
    b.schema = a.schema := by
  rcases h with ⟨-, h⟩ | h
  · exact h
  · omega

theorem before_of_eq {a b : Editor} (hr : b.revision = a.revision) (hs : b.schema = a.schema) :
    a.Before b := Or.inl ⟨hr, hs⟩

theorem Edited.before {a b : Editor} (h : a.Edited b) : a.Before b := by
  rcases h.schema with ⟨hr, hs⟩ | ⟨hr, -⟩
  · exact before_of_eq hr hs
  · refine Or.inr ?_
    omega

theorem before_applyCompileEvent (editor : Editor) (event : CompileEvent) :
    editor.Before (editor.applyCompileEvent event).1 := by
  by_cases hstale : event.generation ≤ editor.appliedGeneration
  · rw [take_stale hstale]
    exact Before.refl _
  · rcases (took (Nat.lt_of_not_le hstale)).schema with ⟨hr, hs⟩ | ⟨hr, -⟩
    · exact before_of_eq hr hs
    · refine Or.inr ?_
      omega

/-- A parsed schema of another revision does not replace the schema. -/
theorem revision_eq_of_parsed {editor : Editor} {generation revision : Nat} {parsed : Schema}
    (h : (editor.applyCompileEvent (.parsed generation revision parsed)).1.revision ≠
      editor.revision) : revision = editor.revision := by
  by_contra hne
  apply h
  unfold applyCompileEvent
  split
  · rfl
  · dsimp only
    rw [if_pos hne]

/-- An event sets the source text of an editor if the text afterwards does not depend on the one
before. -/
def SetsSource (editor : Editor) (event : CompileEvent) (text : String) : Prop :=
  ∀ source, (({ editor with source := source } : Editor).applyCompileEvent event).1.source =
    some text

/-- A text becomes the source if its event is newer than the last one, and the schema is not. -/
theorem setsSource_iff {editor : Editor} {generation revision : Nat} {written text : String} :
    editor.SetsSource (.source generation revision written) text ↔
      editor.appliedGeneration < generation ∧ editor.revision ≤ revision ∧ written = text := by
  constructor
  · intro h
    have h' := h none
    unfold applyCompileEvent at h'
    split at h'
    · cases h'
    · rename_i hg
      dsimp only at h'
      split at h'
      · cases h'
      · rename_i hr
        exact ⟨Nat.lt_of_not_le hg, Nat.le_of_not_lt hr, Option.some.inj h'⟩
  · rintro ⟨hg, hr, rfl⟩ source
    unfold applyCompileEvent
    split
    · rename_i h
      exact absurd h (Nat.not_le_of_lt hg)
    · dsimp only
      split
      · rename_i h
        exact absurd h (Nat.not_lt_of_le hr)
      · rfl

end Editor

namespace Workspace

theorem before_step (space : Workspace) (act : Act) :
    space.editor.Before (space.step act).editor := by
  cases act with
  | sync =>
      show space.editor.Before (space.editor.sync space.worker).1
      unfold Editor.sync
      split
      · exact Editor.Before.refl _
      · exact Editor.before_of_eq rfl rfl
  | deliver =>
      unfold step
      dsimp only
      split
      · exact Editor.Before.refl _
      · exact Editor.before_applyCompileEvent _ _
  | _ => exact (space.edited_step (by simp) (by simp)).before

theorem before_perform (space : Workspace) (acts : List Act) :
    space.editor.Before (space.perform acts).editor := by
  induction acts using List.reverseRecOn with
  | nil => exact Editor.Before.refl _
  | append_singleton acts act ih =>
      rw [perform_concat]
      exact ih.trans (before_step _ _)

end Workspace

/-! ## Generations -/

namespace Worker

/-- The generations of the requests that have no result yet. -/
def openGenerations (worker : Worker) : List Nat :=
  worker.waiting.toList.map (·.generation) ++ worker.running.map (·.event.generation)

/-- No request has more than one result, and results are delivered in the order of the requests.
`taken` are the events that the editor has already got. -/
structure Orderly (worker : Worker) (taken : List CompileEvent) : Prop where
  /-- No request is newer than the latest one. -/
  open_le : ∀ g ∈ worker.openGenerations, g ≤ worker.generation
  /-- No request is compiled twice. -/
  open_nodup : worker.openGenerations.Nodup
  /-- No event is newer than the latest request. -/
  sent_le : ∀ e ∈ taken ++ worker.delivered, e.generation ≤ worker.generation
  /-- A request whose event was delivered has been dealt with. -/
  apart : ∀ g ∈ worker.openGenerations, ∀ e ∈ taken ++ worker.delivered, e.generation ≠ g
  /-- A later event answers a later request. -/
  increasing : (taken ++ worker.delivered).Pairwise (·.generation < ·.generation)

theorem orderly_idle (debounce duration : Nat) (ids : IdSupply) :
    (idle debounce duration ids).Orderly [] where
  open_le := by intro g hg; simp [openGenerations, idle] at hg
  open_nodup := by simp [openGenerations, idle]
  sent_le := by intro e he; simp [idle] at he
  apart := by intro g hg; simp [openGenerations, idle] at hg
  increasing := by simp [idle]

theorem Orderly.elapse {worker : Worker} {taken : List CompileEvent} (h : worker.Orderly taken)
    (time : Nat) : (worker.elapse time).Orderly taken :=
  ⟨h.open_le, h.open_nodup, h.sent_le, h.apart, h.increasing⟩

theorem openGenerations_submit (worker : Worker) (request : CompileRequest) :
    (worker.submit request).1.openGenerations =
      (worker.generation + 1) :: worker.running.map (·.event.generation) := rfl

theorem running_subset_open {worker : Worker} {g : Nat}
    (h : g ∈ worker.running.map (·.event.generation)) : g ∈ worker.openGenerations :=
  List.mem_append_right _ h

/-- A new request takes the place of the one that waits, and is newer than everything. -/
theorem Orderly.submit {worker : Worker} {taken : List CompileEvent} (h : worker.Orderly taken)
    (request : CompileRequest) : (worker.submit request).1.Orderly taken where
  open_le := by
    intro g hg
    show g ≤ worker.generation + 1
    rw [openGenerations_submit] at hg
    rcases List.mem_cons.mp hg with rfl | hg
    · exact Nat.le_refl _
    · exact Nat.le_succ_of_le (h.open_le g (running_subset_open hg))
  open_nodup := by
    rw [openGenerations_submit, List.nodup_cons]
    refine ⟨fun hmem => ?_, (List.nodup_append.mp h.open_nodup).2.1⟩
    have := h.open_le _ (running_subset_open hmem)
    omega
  sent_le := by
    intro e he
    exact Nat.le_succ_of_le (h.sent_le e he)
  apart := by
    intro g hg e he
    rw [openGenerations_submit] at hg
    rcases List.mem_cons.mp hg with rfl | hg
    · have := h.sent_le e he
      omega
    · exact h.apart g (running_subset_open hg) e he
  increasing := h.increasing

theorem openGenerations_expire (worker : Worker) :
    worker.expire.openGenerations.Perm worker.openGenerations := by
  unfold expire openGenerations
  cases hw : worker.waiting with
  | none => rw [hw]
  | some waiting =>
      simp only [Option.toList_none, List.map_nil, List.nil_append, List.map_append,
        List.map_cons, CompileRequest.generation_run, Option.toList_some]
      exact List.perm_append_comm

/-- A request that starts stays open. -/
theorem Orderly.expire {worker : Worker} {taken : List CompileEvent} (h : worker.Orderly taken) :
    worker.expire.Orderly taken where
  open_le := by
    intro g hg
    rw [generation_expire]
    exact h.open_le g ((openGenerations_expire worker).mem_iff.mp hg)
  open_nodup := (openGenerations_expire worker).nodup_iff.mpr h.open_nodup
  sent_le := by rw [generation_expire, delivered_expire]; exact h.sent_le
  apart := by
    intro g hg
    rw [delivered_expire]
    exact h.apart g ((openGenerations_expire worker).mem_iff.mp hg)
  increasing := by rw [delivered_expire]; exact h.increasing

/-- A compile that ends was open, and what stays open was open beside it. -/
theorem openGenerations_complete {worker : Worker} {place : Nat} {done : Running}
    (hd : worker.running[place]? = some done) :
    worker.openGenerations.Perm
      (done.event.generation :: (worker.complete place).openGenerations) := by
  have hw : (worker.complete place).waiting = worker.waiting := by rw [complete, hd]
  have hr : (worker.complete place).running = worker.running.eraseIdx place := by rw [complete, hd]
  have hsplit : worker.running.Perm (done :: worker.running.eraseIdx place) := by
    obtain ⟨hlt, rfl⟩ := List.getElem?_eq_some_iff.mp hd
    rw [List.eraseIdx_eq_take_drop_succ]
    conv => lhs; rw [← List.take_append_drop place worker.running, List.drop_eq_getElem_cons hlt]
    exact List.perm_middle
  rw [openGenerations, openGenerations, hw, hr]
  refine ((hsplit.map _).append_left _).trans ?_
  rw [List.map_cons]
  exact List.perm_middle

/-- A compile delivers only as the latest one, and all that was delivered before is older. -/
theorem Orderly.complete {worker : Worker} {taken : List CompileEvent} (h : worker.Orderly taken)
    (place : Nat) : (worker.complete place).Orderly taken := by
  cases hd : worker.running[place]? with
  | none =>
      have : worker.complete place = worker := by rw [Worker.complete, hd]
      rw [this]
      exact h
  | some done =>
      have hperm := openGenerations_complete hd
      have hg : (worker.complete place).generation = worker.generation := by
        rw [Worker.complete, hd]
      have hmem : done.event.generation ∈ worker.openGenerations :=
        hperm.mem_iff.mpr List.mem_cons_self
      have hsub : ∀ g ∈ (worker.complete place).openGenerations, g ∈ worker.openGenerations :=
        fun g hg => hperm.mem_iff.mpr (List.mem_cons_of_mem _ hg)
      have hnodup := hperm.nodup_iff.mp h.open_nodup
      rw [List.nodup_cons] at hnodup
      have hdel : (worker.complete place).delivered =
          if done.event.generation = worker.generation then worker.delivered ++ [done.event]
          else worker.delivered := by
        rw [Worker.complete, hd]
      by_cases hcur : done.event.generation = worker.generation
      · -- the result of the latest request is sent, and nothing that was sent is as new
        rw [if_pos hcur] at hdel
        refine ⟨fun g h' => hg ▸ h.open_le g (hsub g h'), hnodup.2, ?_, ?_, ?_⟩
        · intro e he
          rw [hdel, ← List.append_assoc] at he
          rw [hg]
          rcases List.mem_append.mp he with he | he
          · exact h.sent_le e he
          · rw [List.mem_singleton.mp he]
            exact Nat.le_of_eq hcur
        · intro g hg' e he
          rw [hdel, ← List.append_assoc] at he
          rcases List.mem_append.mp he with he | he
          · exact h.apart g (hsub g hg') e he
          · rw [List.mem_singleton.mp he]
            exact fun heq => hnodup.1 (heq ▸ hg')
        · rw [hdel, ← List.append_assoc, List.pairwise_append]
          refine ⟨h.increasing, List.pairwise_singleton _ _, ?_⟩
          intro e he d hd'
          rw [List.mem_singleton.mp hd', hcur]
          have hle := h.sent_le e he
          have hne := h.apart _ hmem e he
          omega
      · -- any other result is dropped
        rw [if_neg hcur] at hdel
        refine ⟨fun g h' => hg ▸ h.open_le g (hsub g h'), hnodup.2, ?_, ?_, ?_⟩
        · rw [hdel, hg]
          exact h.sent_le
        · intro g hg'
          rw [hdel]
          exact h.apart g (hsub g hg')
        · rw [hdel]
          exact h.increasing

/-- Taking an event changes nothing about what was delivered. -/
theorem Orderly.take {worker : Worker} {taken rest : List CompileEvent} {event : CompileEvent}
    (h : worker.Orderly taken) (hd : worker.delivered = event :: rest) :
    ({ worker with delivered := rest } : Worker).Orderly (taken ++ [event]) := by
  have hsame : taken ++ worker.delivered = (taken ++ [event]) ++ rest := by
    rw [hd, List.append_assoc, List.singleton_append]
  exact ⟨h.open_le, h.open_nodup, hsame ▸ h.sent_le, hsame ▸ h.apart, hsame ▸ h.increasing⟩

end Worker

theorem Workspace.orderly_perform (config : EditorConfig) (placed : Placed)
    (editorIds workerIds : IdSupply) (debounce duration : Nat) (acts : List Act) :
    let start := Workspace.start config placed editorIds debounce duration workerIds
    (start.perform acts).worker.Orderly (start.deliveries acts) := by
  intro start
  induction acts using List.reverseRecOn with
  | nil => exact Worker.orderly_idle _ _ _
  | append_singleton acts act ih =>
      by_cases hact : act = .deliver
      · subst hact
        rw [perform_concat, deliveries_concat]
        unfold step delivery?
        dsimp only
        cases hd : (start.perform acts).worker.delivered with
        | nil =>
            rw [List.head?_nil, Option.toList_none, List.append_nil]
            exact ih
        | cons event rest =>
            rw [List.head?_cons, Option.toList_some]
            exact ih.take hd
      · rw [perform_concat, deliveries_concat_of_ne _ _ hact]
        cases act with
        | createTable | apply | handle | commitColumn | commitJoin | takeDocument | draft
          | takeNotices => exact ih
        | sync =>
            show ((start.perform acts).editor.sync (start.perform acts).worker).2.1.Orderly _
            unfold Editor.sync
            split
            · exact ih
            · exact ih.submit _
        | submitSource source => exact ih.submit _
        | elapse time => exact ih.elapse time
        | expire => exact ih.expire
        | complete place => exact ih.complete place
        | deliver => exact absurd rfl hact

/-! ## What requests and events say -/

namespace Workspace

/-- A source text was submitted under this generation, when the schema had this revision. -/
def Submitted (space : Workspace) (acts : List Act) (generation revision : Nat)
    (source : String) : Prop :=
  ∃ n, acts[n]? = some (.submitSource source) ∧
    (space.moment acts n).worker.generation + 1 = generation ∧
    (space.moment acts n).editor.revision = revision

/-- A schema that is to be written stands or has been replaced; a text that is to be parsed was
submitted. -/
def RequestTrue (space : Workspace) (acts : List Act) (generation : Nat) : CompileRequest → Prop
  | .serialize revision schema =>
    revision ≤ (space.perform acts).editor.revision ∧
      ((space.perform acts).editor.revision ≤ revision →
        schema = (space.perform acts).editor.schema)
  | .parse revision source => space.Submitted acts generation revision source

/-- The text of an event is the one of the schema, or that has been replaced; a parsed schema goes
back to a text that was submitted. -/
def EventTrue (space : Workspace) (acts : List Act) : CompileEvent → Prop
  | .source _ revision text =>
    revision ≤ (space.perform acts).editor.revision ∧
      ((space.perform acts).editor.revision ≤ revision →
        text = Source.textOf (space.perform acts).editor.schema)
  | .parsed generation revision parsed =>
    ∃ source ids rest, space.Submitted acts generation revision source ∧
      Source.compile source ids = (.ok parsed, rest)
  | .failed _ _ => True

/-- All that the worker holds is true. -/
structure Truthful (space : Workspace) (acts : List Act) : Prop where
  waiting : ∀ x, (space.perform acts).worker.waiting = some x →
    space.RequestTrue acts x.generation x.request
  running : ∀ r ∈ (space.perform acts).worker.running, space.EventTrue acts r.event
  delivered : ∀ e ∈ (space.perform acts).worker.delivered, space.EventTrue acts e

variable {space : Workspace} {acts : List Act}

theorem before_moment_perform (space : Workspace) (acts : List Act) (n : Nat) :
    (space.moment acts n).editor.Before (space.perform acts).editor := by
  rw [perform_eq space acts n]
  exact before_perform _ _

/-- What is handed over is true of the schema that stood then, and so of the one that stands now, if
it is the same. -/
theorem Requests.requestTrue {n generation : Nat} {request : CompileRequest}
    (h : space.Requests acts n generation request) : space.RequestTrue acts generation request := by
  obtain ⟨⟨act, hact, hrequest⟩, hnext⟩ := h
  cases act with
  | sync =>
      obtain ⟨rfl, -⟩ := sync_of_some hrequest
      have hb := before_moment_perform space acts n
      exact ⟨hb.revision_le, fun hle => (hb.schema_eq hle).symm⟩
  | submitSource source =>
      obtain rfl := Option.some.inj hrequest
      exact ⟨n, hact, hnext, rfl⟩
  | _ => cases hrequest

/-- Compiling a true request gives a true event. -/
theorem RequestTrue.run {generation : Nat} {request : CompileRequest}
    (h : space.RequestTrue acts generation request) (ids : IdSupply) :
    space.EventTrue acts (request.run generation ids).1 := by
  unfold CompileRequest.run
  cases request with
  | serialize revision schema =>
      dsimp only
      split
      · rename_i text ht
        refine ⟨h.1, fun hle => ?_⟩
        rw [← h.2 hle]
        unfold Source.textOfValid at ht
        split at ht
        · exact (Except.ok.inj ht).symm
        · cases ht
      · trivial
  | parse revision source =>
      dsimp only
      split
      · rename_i parsed rest hc
        exact ⟨source, ids, rest, h, hc⟩
      · trivial

theorem Answers.eventTrue {event : CompileEvent} (h : space.Answers acts event) :
    space.EventTrue acts event := by
  obtain ⟨n, request, ids, hrequest, hevent⟩ := h
  rw [hevent]
  exact hrequest.requestTrue.run ids

/-- **In every run the worker holds nothing but the truth.** -/
theorem truthful_perform (config : EditorConfig) (placed : Placed)
    (editorIds workerIds : IdSupply) (debounce duration : Nat) (acts : List Act) :
    (start config placed editorIds debounce duration workerIds).Truthful acts := by
  have horigins := origins_perform config placed editorIds workerIds debounce duration acts
  refine ⟨fun x hx => ?_, fun r hr => (horigins.running r hr).eventTrue, fun e he => ?_⟩
  · obtain ⟨n, hn⟩ := horigins.waiting x hx
    exact hn.requestTrue
  · exact (horigins.sent e (List.mem_append_right _ he)).eventTrue

/-! ## The latest schema -/

/-- The act in place `n` of a run replaces the schema. -/
def ReplacedAt (space : Workspace) (acts : List Act) (n : Nat) : Prop :=
  (space.moment acts (n + 1)).editor.revision ≠ (space.moment acts n).editor.revision ∨
    (space.moment acts (n + 1)).editor.schema ≠ (space.moment acts n).editor.schema

theorem before_moment (space : Workspace) (acts : List Act) {m n : Nat} (h : m ≤ n) :
    (space.moment acts m).editor.Before (space.moment acts n).editor := by
  rw [moment_add space acts h]
  exact before_perform _ _

/-- Between moments of the same revision the schema is not replaced. -/
theorem not_replacedAt {m n k : Nat} (hmk : m ≤ k) (hkn : k < n)
    (hr : (space.moment acts n).editor.revision ≤ (space.moment acts m).editor.revision) :
    ¬ space.ReplacedAt acts k := by
  have h₁ := (before_moment space acts hmk).revision_le
  have h₂ := before_moment space acts (show k ≤ k + 1 by omega)
  have h₃ := (before_moment space acts (show k + 1 ≤ n by omega)).revision_le
  have h₄ := h₂.revision_le
  rintro (h | h)
  · apply h
    omega
  · exact h (h₂.schema_eq (by omega))

theorem mem_delivered_of_delivery? {act : Act} {event : CompileEvent}
    (h : space.delivery? act = some event) :
    act = .deliver ∧ event ∈ space.worker.delivered := by
  cases act with
  | deliver => exact ⟨rfl, List.mem_of_mem_head? h⟩
  | _ => cases h

theorem step_deliver {event : CompileEvent} (h : space.delivery? .deliver = some event) :
    (space.step .deliver).editor = (space.editor.applyCompileEvent event).1 := by
  unfold delivery? at h
  unfold step
  cases hd : space.worker.delivered with
  | nil => rw [hd] at h; cases h
  | cons first rest =>
      rw [hd] at h
      obtain rfl := Option.some.inj h
      rfl

/-- **The latest schema stands.** In every run of an editor with its worker, whatever the order of
edits, requests, compiles and deliveries:

* a parsed schema replaces the live one only if that was not replaced since the text was submitted;
* a text that becomes the source is the one of the schema that stands at that moment;
* the generations of the events that are delivered increase. -/
theorem latest_schema_stands (config : EditorConfig) (placed : Placed)
    (editorIds workerIds : IdSupply) (debounce duration : Nat) (acts : List Act) :
    let space := start config placed editorIds debounce duration workerIds
    (∀ n generation revision parsed,
      space.Delivers acts n (.parsed generation revision parsed) → space.ReplacedAt acts n →
      ∃ m source, m < n ∧ acts[m]? = some (.submitSource source) ∧
        (space.moment acts m).worker.generation + 1 = generation ∧
        (∃ ids rest, Source.compile source ids = (.ok parsed, rest)) ∧
        ∀ k, m ≤ k → k < n → ¬ space.ReplacedAt acts k) ∧
    (∀ n generation revision written text,
      space.Delivers acts n (.source generation revision written) →
      (space.moment acts n).editor.SetsSource (.source generation revision written) text →
      text = Source.textOf (space.moment acts n).editor.schema ∧
        (space.moment acts (n + 1)).editor.source = some text) ∧
    ((space.deliveries acts).map (·.generation)).Pairwise (· < ·) := by
  intro space
  refine ⟨?_, ?_, ?_⟩
  · intro n generation revision parsed ⟨act, hact, hdel⟩ hrep
    obtain ⟨rfl, hmem⟩ := mem_delivered_of_delivery? hdel
    have htrue := (truthful_perform config placed editorIds workerIds debounce duration
      (acts.take n)).delivered _ hmem
    obtain ⟨source, ids, rest, ⟨m, hm, hg, hr⟩, hc⟩ := htrue
    have hlt : m < n := by
      have := (List.getElem?_eq_some_iff.mp hm).1
      rw [List.length_take] at this
      omega
    rw [List.getElem?_take_of_lt hlt] at hm
    rw [moment_take _ _ (Nat.le_of_lt hlt)] at hg hr
    refine ⟨m, source, hlt, hm, hg, ⟨ids, rest, hc⟩, fun k hmk hkn => ?_⟩
    refine not_replacedAt hmk hkn ?_
    -- the event was taken, so its revision is the one of this moment
    rw [ReplacedAt, moment_succ _ hact, step_deliver hdel] at hrep
    have hrev : revision = (space.moment acts n).editor.revision := by
      by_contra hne
      have hsame : ((space.moment acts n).editor.applyCompileEvent
          (.parsed generation revision parsed)).1.revision =
          (space.moment acts n).editor.revision := by
        by_contra h
        exact hne (Editor.revision_eq_of_parsed h)
      rcases hrep with h | h
      · exact h hsame
      · exact h ((Editor.before_applyCompileEvent _ _).schema_eq (Nat.le_of_eq hsame))
    exact Nat.le_of_eq (hrev.symm.trans hr.symm)
  · intro n generation revision written text ⟨act, hact, hdel⟩ hset
    obtain ⟨rfl, hmem⟩ := mem_delivered_of_delivery? hdel
    have htrue := (truthful_perform config placed editorIds workerIds debounce duration
      (acts.take n)).delivered _ hmem
    obtain ⟨-, hle, rfl⟩ := Editor.setsSource_iff.mp hset
    refine ⟨htrue.2 hle, ?_⟩
    rw [moment_succ _ hact, step_deliver hdel]
    exact hset _
  · rw [List.pairwise_map]
    have h := orderly_perform config placed editorIds workerIds debounce duration acts
    exact (List.pairwise_append.mp h.increasing).1

/-- A text is submitted and taken over, and the schema that it gives is written as text again. -/
def typicalRun : List Act :=
  [.submitSource "entity A \x7b id uuid pk \x7d", .expire, .complete 0, .deliver,
    .sync, .expire, .complete 0, .deliver]

/-- Where the typical run starts: without tables. -/
def typicalStart : Workspace :=
  start .usual ⟨.empty, .empty⟩ ⟨"a", 0⟩ 500 0 ⟨"b", 0⟩

/-- The schema that the typical run takes over. -/
def typicalSchema : Schema :=
  ⟨[Table.seeded ⟨"b000000000000"⟩ ⟨"b000000000001"⟩ "A" .uuid]⟩

deriving instance DecidableEq for CompileEvent

/-- In the typical run the parsed schema does replace the live one, and its text does become the
source. -/
theorem typicalRun_stands :
    (typicalStart.Delivers typicalRun 3 (.parsed 1 0 typicalSchema) ∧
      typicalStart.ReplacedAt typicalRun 3 ∧
      ∃ m source, m < 3 ∧ typicalRun[m]? = some (.submitSource source) ∧
        ∀ k, m ≤ k → k < 3 → ¬ typicalStart.ReplacedAt typicalRun k) ∧
    (typicalStart.Delivers typicalRun 7 (.source 2 1 "entity A \x7b\n    id uuid pk\n\x7d\n") ∧
      (typicalStart.moment typicalRun 8).editor.source =
        some (Source.textOf (typicalStart.moment typicalRun 7).editor.schema)) ∧
    ((typicalStart.deliveries typicalRun).map (·.generation)).Pairwise (· < ·) := by
  obtain ⟨hparsed, hsource, horder⟩ :=
    latest_schema_stands .usual ⟨.empty, .empty⟩ ⟨"a", 0⟩ ⟨"b", 0⟩ 500 0 typicalRun
  have hdel : typicalStart.Delivers typicalRun 3 (.parsed 1 0 typicalSchema) :=
    ⟨.deliver, rfl, by decide +kernel⟩
  have hrep : typicalStart.ReplacedAt typicalRun 3 := Or.inl (by decide +kernel)
  have hdel' : typicalStart.Delivers typicalRun 7
      (.source 2 1 "entity A \x7b\n    id uuid pk\n\x7d\n") := ⟨.deliver, rfl, by decide +kernel⟩
  obtain ⟨m, source, hm, hact, -, -, hbetween⟩ := hparsed 3 1 0 typicalSchema hdel hrep
  obtain ⟨htext, hset⟩ := hsource 7 2 1 _ _ hdel'
    (Editor.setsSource_iff.mpr ⟨by decide +kernel, by decide +kernel, rfl⟩)
  exact ⟨⟨hdel, hrep, m, source, hm, hact, hbetween⟩, ⟨hdel', htext ▸ hset⟩, horder⟩

end Workspace

end ErModel
