import Mathlib.Data.List.Induction
import ErModel.Proofs.Workspace

/-!
# Requests and the events that answer them

The worker does nothing on its own account. What waits or runs at some moment of a run, and what has
been sent to the editor by then, goes back to one act of that run that handed a request over. Since
that act is a place in the run, all that was true of the editor at that place can be said of the
request, and of the event that answers it, at any later time.
-/

namespace ErModel

namespace Worker

theorem generation_expire (worker : Worker) : worker.expire.generation = worker.generation := by
  unfold expire
  split <;> rfl

theorem delivered_expire (worker : Worker) : worker.expire.delivered = worker.delivered := by
  unfold expire
  split <;> rfl

theorem generation_complete (worker : Worker) (place : Nat) :
    (worker.complete place).generation = worker.generation := by
  unfold complete
  split <;> rfl

end Worker

@[simp] theorem CompileRequest.generation_run (request : CompileRequest) (generation : Nat)
    (ids : IdSupply) : (request.run generation ids).1.generation = generation := by
  unfold CompileRequest.run
  cases request with
  | serialize revision schema => dsimp only; split <;> rfl
  | parse revision source => dsimp only; split <;> rfl

namespace Workspace

/-- The request that an act hands to the worker, if it hands one over. -/
def request? (space : Workspace) : Act → Option CompileRequest
  | .sync =>
    if space.editor.submitted = some space.editor.revision then none
    else some space.editor.serializeRequest
  | .submitSource source => some (space.editor.parseRequest source)
  | _ => none

/-- The act in place `n` of a run hands over a request, which gets this generation. -/
structure Requests (space : Workspace) (acts : List Act) (n generation : Nat)
    (request : CompileRequest) : Prop where
  asked : ∃ act, acts[n]? = some act ∧ (space.moment acts n).request? act = some request
  next : (space.moment acts n).worker.generation + 1 = generation

/-- The event is what compiling a request gives that was handed over. -/
def Answers (space : Workspace) (acts : List Act) (event : CompileEvent) : Prop :=
  ∃ n request ids, space.Requests acts n event.generation request ∧
    event = (request.run event.generation ids).1

/-- The events that the worker has sent: the editor has got some, and the others are on their
way. -/
def sent (space : Workspace) (acts : List Act) : List CompileEvent :=
  space.deliveries acts ++ (space.perform acts).worker.delivered

/-- All that the worker holds and has sent goes back to a request. -/
structure Origins (space : Workspace) (acts : List Act) : Prop where
  waiting : ∀ x, (space.perform acts).worker.waiting = some x →
    ∃ n, space.Requests acts n x.generation x.request
  running : ∀ r ∈ (space.perform acts).worker.running, space.Answers acts r.event
  sent : ∀ e ∈ space.sent acts, space.Answers acts e

variable {space : Workspace} {acts : List Act}

/-! ## Acts that hand over a request -/

theorem sync_of_none (h : space.request? .sync = none) :
    space.editor.submitted = some space.editor.revision ∧ space.step .sync = space := by
  have hs : space.editor.submitted = some space.editor.revision := by
    by_contra hs
    exact absurd ((if_neg hs).symm.trans h) (by simp)
  refine ⟨hs, ?_⟩
  show Workspace.mk (space.editor.sync space.worker).1 (space.editor.sync space.worker).2.1 = space
  rw [Editor.sync, if_pos hs]

theorem sync_of_some {request : CompileRequest} (h : space.request? .sync = some request) :
    request = space.editor.serializeRequest ∧ space.step .sync =
      ⟨{ space.editor with submitted := some space.editor.revision },
        (space.worker.submit request).1⟩ := by
  have hs : space.editor.submitted ≠ some space.editor.revision := by
    intro hs
    exact absurd ((if_pos hs).symm.trans h) (by simp)
  obtain rfl := Option.some.inj ((if_neg hs).symm.trans h)
  refine ⟨rfl, ?_⟩
  show Workspace.mk (space.editor.sync space.worker).1 (space.editor.sync space.worker).2.1 = _
  rw [Editor.sync, if_neg hs]

theorem step_worker_of_request {act : Act} {request : CompileRequest}
    (h : space.request? act = some request) :
    (space.step act).worker = (space.worker.submit request).1 := by
  cases act with
  | sync => rw [(sync_of_some h).2]
  | submitSource source =>
      cases h
      rfl
  | _ => cases h

/-- An act that hands nothing over leaves the worker its generation. -/
theorem generation_step {act : Act} (h : space.request? act = none) :
    (space.step act).worker.generation = space.worker.generation := by
  cases act with
  | sync => rw [(sync_of_none h).2]
  | submitSource source => cases h
  | expire => exact space.worker.generation_expire
  | complete place => exact space.worker.generation_complete place
  | deliver =>
      unfold step
      dsimp only
      split <;> rfl
  | _ => rfl

theorem generation_step_le (space : Workspace) (act : Act) :
    space.worker.generation ≤ (space.step act).worker.generation := by
  cases h : space.request? act with
  | none => exact Nat.le_of_eq (generation_step h).symm
  | some request =>
      rw [step_worker_of_request h]
      exact Nat.le_succ _

theorem generation_perform_le (space : Workspace) (acts : List Act) :
    space.worker.generation ≤ (space.perform acts).worker.generation := by
  induction acts using List.reverseRecOn with
  | nil => exact Nat.le_refl _
  | append_singleton acts act ih =>
      rw [perform_concat]
      exact Nat.le_trans ih (generation_step_le _ _)

namespace Requests

variable {n generation : Nat} {request : CompileRequest}

theorem lt_length (h : space.Requests acts n generation request) : n < acts.length := by
  obtain ⟨act, hact, -⟩ := h.asked
  exact (List.getElem?_eq_some_iff.mp hact).1

/-- After the act the generation of the worker is the one of the request. -/
theorem generation_succ (h : space.Requests acts n generation request) :
    (space.moment acts (n + 1)).worker.generation = generation := by
  obtain ⟨⟨act, hact, hrequest⟩, hnext⟩ := h
  rw [moment_succ space hact, step_worker_of_request hrequest]
  exact hnext

theorem append (h : space.Requests acts n generation request) (more : List Act) :
    space.Requests (acts ++ more) n generation request := by
  obtain ⟨act, hact, hrequest⟩ := h.asked
  have hmoment := moment_append space acts more (Nat.le_of_lt h.lt_length)
  refine ⟨⟨act, ?_, hmoment ▸ hrequest⟩, hmoment ▸ h.next⟩
  rw [List.getElem?_append_left h.lt_length, hact]

end Requests

theorem Answers.append {event : CompileEvent} (h : space.Answers acts event) (more : List Act) :
    space.Answers (acts ++ more) event := by
  obtain ⟨n, request, ids, hrequest, hevent⟩ := h
  exact ⟨n, request, ids, hrequest.append more, hevent⟩

/-- The last act of a run hands over a request. -/
theorem requests_concat {act : Act} {request : CompileRequest}
    (h : (space.perform acts).request? act = some request) :
    space.Requests (acts ++ [act]) acts.length ((space.perform acts).worker.generation + 1)
      request := by
  have hmoment := moment_length space acts [act]
  refine ⟨⟨act, ?_, hmoment ▸ h⟩, by rw [hmoment]⟩
  rw [List.getElem?_append_right (Nat.le_refl _), Nat.sub_self]
  rfl

/-! ## Events that have been sent -/

theorem sent_concat {act : Act} (hact : act ≠ .deliver)
    (hd : (space.perform (acts ++ [act])).worker.delivered =
      (space.perform acts).worker.delivered) : space.sent (acts ++ [act]) = space.sent acts := by
  rw [sent, sent, deliveries_concat_of_ne _ _ hact, hd]

/-- A delivery changes nothing about what has been sent. -/
theorem sent_concat_deliver (space : Workspace) (acts : List Act) :
    space.sent (acts ++ [.deliver]) = space.sent acts := by
  rw [sent, sent, deliveries_concat, perform_concat, step, delivery?]
  cases hd : (space.perform acts).worker.delivered with
  | nil => simp [hd]
  | cons event rest => simp

/-! ## Every run -/

theorem Origins.concat_of_eq (h : space.Origins acts) {act : Act}
    (hw : (space.perform (acts ++ [act])).worker.waiting = (space.perform acts).worker.waiting)
    (hr : (space.perform (acts ++ [act])).worker.running = (space.perform acts).worker.running)
    (hs : space.sent (acts ++ [act]) = space.sent acts) : space.Origins (acts ++ [act]) where
  waiting := by
    intro x hx
    obtain ⟨n, hn⟩ := h.waiting x (hw ▸ hx)
    exact ⟨n, hn.append _⟩
  running := fun r hr' => (h.running r (hr ▸ hr')).append _
  sent := fun e he => (h.sent e (hs ▸ he)).append _

/-- A request that is handed over waits, and nothing else is new. -/
theorem Origins.concat_of_request (h : space.Origins acts) {act : Act} {request : CompileRequest}
    (hrequest : (space.perform acts).request? act = some request) :
    space.Origins (acts ++ [act]) := by
  have hworker : (space.perform (acts ++ [act])).worker =
      ((space.perform acts).worker.submit request).1 := by
    rw [perform_concat, step_worker_of_request hrequest]
  have hact : act ≠ .deliver := by
    rintro rfl
    cases hrequest
  refine ⟨fun x hx => ?_, fun r hr => ?_, fun e he => ?_⟩
  · rw [hworker] at hx
    obtain rfl := Option.some.inj hx
    exact ⟨_, requests_concat hrequest⟩
  · rw [hworker] at hr
    exact (h.running r hr).append _
  · rw [sent_concat hact (by rw [hworker]; rfl)] at he
    exact (h.sent e he).append _

/-- The request that waits runs. -/
theorem Origins.concat_expire (h : space.Origins acts) : space.Origins (acts ++ [.expire]) := by
  have hworker : (space.perform (acts ++ [.expire])).worker =
      (space.perform acts).worker.expire := by
    rw [perform_concat]
    rfl
  have hsent : space.sent (acts ++ [.expire]) = space.sent acts :=
    sent_concat (by simp) (by rw [hworker, Worker.delivered_expire])
  cases hwait : (space.perform acts).worker.waiting with
  | none =>
      have hsame : (space.perform acts).worker.expire = (space.perform acts).worker := by
        rw [Worker.expire, hwait]
      exact h.concat_of_eq (by rw [hworker, hsame]) (by rw [hworker, hsame]) hsent
  | some x =>
      refine ⟨fun y hy => ?_, fun r hr => ?_, fun e he => ?_⟩
      · rw [hworker, Worker.expire, hwait] at hy
        cases hy
      · rw [hworker, Worker.expire, hwait] at hr
        rcases List.mem_append.mp hr with hr | hr
        · exact (h.running r hr).append _
        · obtain ⟨n, hn⟩ := h.waiting x hwait
          rw [List.mem_singleton.mp hr]
          refine ⟨n, x.request, (space.perform acts).worker.ids, ?_, ?_⟩
          · rw [CompileRequest.generation_run]
            exact hn.append _
          · rw [CompileRequest.generation_run]
      · exact (h.sent e (hsent ▸ he)).append _

/-- A compile that ends is sent as it is, or not at all. -/
theorem Origins.concat_complete (h : space.Origins acts) (place : Nat) :
    space.Origins (acts ++ [.complete place]) := by
  have hworker : (space.perform (acts ++ [.complete place])).worker =
      (space.perform acts).worker.complete place := by
    rw [perform_concat]
    rfl
  cases hd : (space.perform acts).worker.running[place]? with
  | none =>
      have hsame : (space.perform acts).worker.complete place = (space.perform acts).worker := by
        rw [Worker.complete, hd]
      exact h.concat_of_eq (by rw [hworker, hsame]) (by rw [hworker, hsame])
        (sent_concat (by simp) (by rw [hworker, hsame]))
  | some done =>
      have hdone := h.running done (List.mem_of_getElem? hd)
      refine ⟨fun x hx => ?_, fun r hr => ?_, fun e he => ?_⟩
      · rw [hworker, Worker.complete, hd] at hx
        obtain ⟨n, hn⟩ := h.waiting x hx
        exact ⟨n, hn.append _⟩
      · rw [hworker, Worker.complete, hd] at hr
        exact (h.running r (List.mem_of_mem_eraseIdx hr)).append _
      · have hmem : e ∈ space.sent acts ∨ e = done.event := by
          rw [Workspace.sent, deliveries_concat_of_ne _ _ (by simp), hworker, Worker.complete,
            hd] at he
          dsimp only at he
          split at he
          · rw [← List.append_assoc] at he
            exact (List.mem_append.mp he).imp id List.mem_singleton.mp
          · exact Or.inl he
        rcases hmem with he | rfl
        · exact (h.sent e he).append _
        · exact hdone.append _

/-- **Whatever happens next, all goes back to a request.** -/
theorem Origins.concat (h : space.Origins acts) (act : Act) : space.Origins (acts ++ [act]) := by
  have hp := perform_concat space acts act
  cases hrequest : (space.perform acts).request? act with
  | some request => exact h.concat_of_request hrequest
  | none =>
      cases act with
      | createTable | apply | handle | commitColumn | commitJoin | takeDocument | draft
        | takeNotices | elapse =>
          exact h.concat_of_eq (by rw [hp]; rfl) (by rw [hp]; rfl)
            (sent_concat (by simp) (by rw [hp]; rfl))
      | sync =>
          -- this revision was handed over before
          have hworker : (space.perform (acts ++ [.sync])).worker =
              (space.perform acts).worker := by
            rw [hp, (sync_of_none hrequest).2]
          exact h.concat_of_eq (by rw [hworker]) (by rw [hworker])
            (sent_concat (by simp) (by rw [hworker]))
      | submitSource source => cases hrequest
      | expire => exact h.concat_expire
      | complete place => exact h.concat_complete place
      | deliver =>
          have hworker : (space.perform (acts ++ [.deliver])).worker.waiting =
              (space.perform acts).worker.waiting ∧
              (space.perform (acts ++ [.deliver])).worker.running =
              (space.perform acts).worker.running := by
            rw [hp, step]
            split <;> exact ⟨rfl, rfl⟩
          exact h.concat_of_eq hworker.1 hworker.2 (sent_concat_deliver space acts)

/-- **In every run, all that the worker holds and has sent goes back to a request.** -/
theorem origins_perform (config : EditorConfig) (placed : Placed)
    (editorIds workerIds : IdSupply) (debounce duration : Nat) (acts : List Act) :
    (start config placed editorIds debounce duration workerIds).Origins acts := by
  induction acts using List.reverseRecOn with
  | nil =>
      refine ⟨?_, ?_, ?_⟩
      · intro x hx; simp [perform, start, Worker.idle] at hx
      · intro r hr; simp [perform, start, Worker.idle] at hr
      · intro e he; simp [sent, deliveries, perform, start, Worker.idle] at he
  | append_singleton acts act ih => exact ih.concat act

end Workspace

end ErModel
