import ErModel.Editor.Basic
import ErModel.Proofs.Common

/-!
# An editor and its worker

The editor and the worker that compiles for it meet only where a request is handed over and where an
event is delivered; between those moments everything else may happen, in any order. So time is left
out here. A request that waits may start at any moment, and so may any compile that is under way end,
whichever was started first; what `Worker.advance` does when time passes is one of these orders
(`advance_eq_perform`).

A `Workspace` is what an editor and its worker are at one moment, an `Act` is one thing that happens
to them, and a run is a list of acts.
-/

namespace ErModel

namespace Worker

/-- Lets time pass, without anything happening. -/
def elapse (worker : Worker) (time : Nat) : Worker := { worker with now := worker.now + time }

/-- The debounce of the request that waits runs out: the request starts. -/
def expire (worker : Worker) : Worker :=
  match worker.waiting with
  | none => worker
  | some waiting =>
    let (event, ids) := waiting.request.run waiting.generation worker.ids
    { worker with
      waiting := none
      running := worker.running ++ [⟨event, waiting.start + worker.duration⟩]
      ids := ids }

/-- The compile in place `place` ends, and its event is delivered if no request came after it. -/
def complete (worker : Worker) (place : Nat) : Worker :=
  match worker.running[place]? with
  | none => worker
  | some done =>
    { worker with
      running := worker.running.eraseIdx place
      delivered :=
        if done.event.generation = worker.generation then worker.delivered ++ [done.event]
        else worker.delivered }

end Worker

/-- An editor and its worker at one moment. -/
structure Workspace where
  editor : Editor
  worker : Worker

/-- One thing that happens to an editor and its worker. -/
inductive Act where
  | createTable (name : Option String)
  | apply (intent : Intent)
  | handle (gesture : Gesture)
  | commitColumn
  | commitJoin
  | takeDocument (source : String)
  /-- A draft is opened, changed or closed: the session becomes any other one. -/
  | draft (session : Session)
  | takeNotices
  | sync
  | submitSource (source : String)
  | elapse (time : Nat)
  | expire
  | complete (place : Nat)
  /-- The editor gets the oldest event that has been delivered. -/
  | deliver

namespace Workspace

/-- An editor with a schema and a worker without work, created together. -/
def start (config : EditorConfig) (placed : Placed) (editorIds : IdSupply)
    (debounce duration : Nat) (workerIds : IdSupply) : Workspace :=
  ⟨Editor.ofPlaced config placed editorIds, Worker.idle debounce duration workerIds⟩

/-- What an act makes of the workspace. -/
def step (space : Workspace) : Act → Workspace
  | .createTable name => { space with editor := (space.editor.createTable name).1 }
  | .apply intent => { space with editor := (space.editor.apply intent).1 }
  | .handle gesture => { space with editor := (space.editor.handle gesture).1 }
  | .commitColumn => { space with editor := space.editor.commitColumn.1 }
  | .commitJoin => { space with editor := space.editor.commitJoin.1 }
  | .takeDocument source => { space with editor := (space.editor.takeDocument source).1 }
  | .draft session => { space with editor := { space.editor with session := session } }
  | .takeNotices => { space with editor := space.editor.takeNotices.1 }
  | .sync => ⟨(space.editor.sync space.worker).1, (space.editor.sync space.worker).2.1⟩
  | .submitSource source => { space with worker := (space.editor.submitSource space.worker source).1 }
  | .elapse time => { space with worker := space.worker.elapse time }
  | .expire => { space with worker := space.worker.expire }
  | .complete place => { space with worker := space.worker.complete place }
  | .deliver =>
    match space.worker.delivered with
    | [] => space
    | event :: rest =>
      ⟨(space.editor.applyCompileEvent event).1, { space.worker with delivered := rest }⟩

/-- What a run makes of the workspace. -/
def perform (space : Workspace) (acts : List Act) : Workspace := acts.foldl step space

/-- The event that an act delivers to the editor, if it delivers one. -/
def delivery? (space : Workspace) : Act → Option CompileEvent
  | .deliver => space.worker.delivered.head?
  | _ => none

/-- The events that a run delivers to the editor, in order. -/
def deliveries (space : Workspace) : List Act → List CompileEvent
  | [] => []
  | act :: rest => (space.delivery? act).toList ++ (space.step act).deliveries rest

theorem perform_append (space : Workspace) (acts more : List Act) :
    space.perform (acts ++ more) = (space.perform acts).perform more := List.foldl_append

theorem perform_concat (space : Workspace) (acts : List Act) (act : Act) :
    space.perform (acts ++ [act]) = (space.perform acts).step act := by
  rw [perform_append]
  rfl

theorem deliveries_concat (space : Workspace) (acts : List Act) (act : Act) :
    space.deliveries (acts ++ [act]) =
      space.deliveries acts ++ ((space.perform acts).delivery? act).toList := by
  induction acts generalizing space with
  | nil => simp [deliveries, perform]
  | cons first rest ih =>
      rw [List.cons_append, deliveries, ih, deliveries, List.append_assoc]
      rfl

theorem deliveries_concat_of_ne (space : Workspace) (acts : List Act) {act : Act}
    (h : act ≠ .deliver) : space.deliveries (acts ++ [act]) = space.deliveries acts := by
  have hnone : ((space.perform acts).delivery? act) = none := by
    cases act with
    | deliver => exact absurd rfl h
    | _ => rfl
  rw [deliveries_concat, hnone, Option.toList_none, List.append_nil]

/-- The workspace before the act in place `n` of a run. -/
def moment (space : Workspace) (acts : List Act) (n : Nat) : Workspace :=
  space.perform (acts.take n)

/-- The act in place `n` of a run delivers `event`. -/
def Delivers (space : Workspace) (acts : List Act) (n : Nat) (event : CompileEvent) : Prop :=
  ∃ act, acts[n]? = some act ∧ (space.moment acts n).delivery? act = some event

theorem moment_take (space : Workspace) (acts : List Act) {m n : Nat} (h : m ≤ n) :
    space.moment (acts.take n) m = space.moment acts m := by
  rw [moment, moment, List.take_take, Nat.min_eq_left h]

theorem moment_append (space : Workspace) (acts more : List Act) {n : Nat}
    (h : n ≤ acts.length) : space.moment (acts ++ more) n = space.moment acts n := by
  rw [moment, moment, List.take_append_of_le_length h]

theorem moment_length (space : Workspace) (acts more : List Act) :
    space.moment (acts ++ more) acts.length = space.perform acts := by
  rw [moment_append _ _ _ (Nat.le_refl _), moment, List.take_length]

/-- A run goes on from each of its moments. -/
theorem perform_eq (space : Workspace) (acts : List Act) (n : Nat) :
    space.perform acts = (space.moment acts n).perform (acts.drop n) := by
  rw [moment, ← perform_append, List.take_append_drop]

theorem moment_succ (space : Workspace) {acts : List Act} {n : Nat} {act : Act}
    (h : acts[n]? = some act) : space.moment acts (n + 1) = (space.moment acts n).step act := by
  obtain ⟨hlt, rfl⟩ := List.getElem?_eq_some_iff.mp h
  rw [moment, moment, List.take_succ_eq_append_getElem hlt, perform_concat]

theorem moment_add (space : Workspace) (acts : List Act) {m n : Nat} (h : m ≤ n) :
    space.moment acts n = (space.moment acts m).perform ((acts.take n).drop m) := by
  have hm : acts.take m = (acts.take n).take m := by rw [List.take_take, Nat.min_eq_left h]
  rw [moment, moment, hm, ← perform_append, List.take_append_drop]

end Workspace

/-! ## Time passing is one of the orders -/

namespace Worker

theorem startDue_eq (worker : Worker) :
    worker.startDue = worker ∨ worker.startDue = worker.expire := by
  unfold startDue expire
  cases worker.waiting with
  | none => exact Or.inl rfl
  | some waiting =>
      dsimp only
      split
      · exact Or.inr rfl
      · exact Or.inl rfl

/-- Ending the compiles that are due ends them one after the other. Those in front of place `place`
are not due and stay. -/
theorem finishDue_eq_complete (worker : Worker) (before rest : List Running)
    (hrun : worker.running = before ++ rest) (hbefore : ∀ r ∈ before, ¬ r.finish ≤ worker.now) :
    ∃ places : List Nat, worker.finishDue = places.foldl complete worker := by
  induction rest generalizing worker before with
  | nil =>
      refine ⟨[], ?_⟩
      have hnone : worker.running.filter (fun r => r.finish ≤ worker.now) = [] := by
        rw [hrun, List.append_nil, List.filter_eq_nil_iff]
        intro r hr
        simpa using hbefore r hr
      have hall : worker.running.filter (fun r => !decide (r.finish ≤ worker.now)) =
          worker.running := by
        rw [List.filter_eq_self, hrun, List.append_nil]
        intro r hr
        simpa using hbefore r hr
      simp only [finishDue, List.partition_eq_filter_filter, Function.comp_def, hnone, hall,
        List.map_nil, List.filter_nil, List.append_nil, List.foldl_nil]
  | cons r rest ih =>
      by_cases hdue : r.finish ≤ worker.now
      · -- the first compile that is due ends, and the others are looked at without it
        have hget : worker.running[before.length]? = some r := by
          rw [hrun, List.getElem?_append_right (Nat.le_refl _), Nat.sub_self]
          rfl
        have herase : worker.running.eraseIdx before.length = before ++ rest := by
          rw [hrun, List.eraseIdx_append_of_length_le (Nat.le_refl _), Nat.sub_self]
          rfl
        have hc : worker.complete before.length =
            { worker with
              running := before ++ rest
              delivered :=
                if r.event.generation = worker.generation then worker.delivered ++ [r.event]
                else worker.delivered } := by
          rw [complete, hget, herase]
        obtain ⟨places, hp⟩ := ih (worker.complete before.length) before (by rw [hc])
          (by rw [hc]; exact hbefore)
        refine ⟨before.length :: places, ?_⟩
        rw [List.foldl_cons, ← hp, hc]
        have hfirst : before.filter (fun r => r.finish ≤ worker.now) = [] := by
          rw [List.filter_eq_nil_iff]
          intro r hr
          simpa using hbefore r hr
        simp only [finishDue, List.partition_eq_filter_filter, Function.comp_def, hrun,
          List.filter_append, hfirst, List.nil_append, List.filter_cons, decide_eq_true hdue,
          if_true, Bool.not_true, Bool.false_eq_true, if_false, List.map_cons]
        by_cases hg : r.event.generation = worker.generation
        · simp only [hg, decide_true, if_true, List.append_assoc, List.singleton_append]
        · simp only [hg, decide_false, Bool.false_eq_true, if_false]
      · exact ih worker (before ++ [r]) (by rw [hrun, List.append_assoc]; rfl) (by
          intro s hs
          rcases List.mem_append.mp hs with h | h
          · exact hbefore s h
          · rw [List.mem_singleton.mp h]
            exact hdue)

end Worker

/-- **What happens when time passes is a run of the workspace.** -/
theorem Workspace.advance_eq_perform (space : Workspace) (time : Nat) :
    ∃ acts, { space with worker := space.worker.advance time } = space.perform acts := by
  have hcomplete : ∀ (places : List Nat) (space : Workspace),
      space.perform (places.map .complete) =
        { space with worker := places.foldl Worker.complete space.worker } := by
    intro places
    induction places with
    | nil => intro space; rfl
    | cons place places ih =>
        intro space
        exact ih (space.step (.complete place))
  obtain ⟨places, hp⟩ := ((space.worker.elapse time).startDue).finishDue_eq_complete [] _
    (List.nil_append _).symm (by simp)
  have hadv : space.worker.advance time =
      places.foldl Worker.complete (space.worker.elapse time).startDue := hp
  rcases (space.worker.elapse time).startDue_eq with h | h
  · refine ⟨.elapse time :: places.map .complete, ?_⟩
    rw [hadv, h]
    exact (hcomplete places (space.step (.elapse time))).symm
  · refine ⟨.elapse time :: .expire :: places.map .complete, ?_⟩
    rw [hadv, h]
    exact (hcomplete places ((space.step (.elapse time)).step .expire)).symm

end ErModel
