import ErModel.Proofs.Requests

/-!
# The schedule of the worker

The worker restarts its window with every request, lets compiles run beside one another, and asks
only at the end of a compile whether its result is out of date. Seen from outside this is a
schedule. A request is handed to the compiler when its window has passed and no other request has
come before that; and its result is emitted when the compile has ended and no other request has come
before that.

A `Watch` is a worker with a record of what went into it and came out of it. It makes no difference
in which portions time passes: whatever is due when time has passed has happened by then.
-/

namespace ErModel

/-- A request, when it came, and how long its compile takes. -/
structure Submission where
  time : Nat
  request : CompileRequest
  duration : Nat

/-- One thing that is done to a worker. -/
inductive Tick where
  | wait (time : Nat)
  /-- A request comes whose compile will take `duration`. -/
  | submit (request : CompileRequest) (duration : Nat)
  | take

/-- No request comes. -/
def Tick.isQuiet : Tick → Bool
  | .submit .. => false
  | _ => true

/-- A worker, and what has been seen of it. -/
structure Watch where
  worker : Worker
  /-- All requests, the oldest first. The place of a request tells its generation. -/
  submitted : List Submission
  /-- All compiles that have started, the oldest first. -/
  started : List Running
  /-- The events that have been taken from the worker. -/
  taken : List CompileEvent

/-- What starts while time passes. -/
def Worker.starting (worker : Worker) (time : Nat) : List Running :=
  (worker.elapse time).startDue.running.drop worker.running.length

namespace Watch

/-- A worker without work, watched from the beginning. -/
def start (debounce : Nat) (ids : IdSupply) : Watch := ⟨Worker.idle debounce 0 ids, [], [], []⟩

/-- The events that the worker has sent, taken or not. -/
def emitted (watch : Watch) : List CompileEvent := watch.taken ++ watch.worker.delivered

def step (watch : Watch) : Tick → Watch
  | .wait time =>
    { watch with
      worker := watch.worker.advance time
      started := watch.started ++ watch.worker.starting time }
  | .submit request duration =>
    { watch with
      worker := ({ watch.worker with duration := duration }.submit request).1
      submitted := watch.submitted ++ [⟨watch.worker.now, request, duration⟩] }
  | .take =>
    { watch with
      worker := watch.worker.take.1
      taken := watch.taken ++ watch.worker.take.2 }

def play (watch : Watch) (ticks : List Tick) : Watch := ticks.foldl step watch

theorem play_concat (watch : Watch) (ticks : List Tick) (tick : Tick) :
    watch.play (ticks ++ [tick]) = (watch.play ticks).step tick := by
  rw [play, List.foldl_append]
  rfl

/-- No request came before `time` but those up to `generation`. -/
def Quiet (watch : Watch) (generation time : Nat) : Prop :=
  ∀ s ∈ watch.submitted.drop generation, time ≤ s.time

/-- A compile of a request under its generation, which has started at the end of its window. -/
def Compiles (debounce : Nat) (watch : Watch) (r : Running) : Prop :=
  ∃ (g : Nat) (s : Submission) (ids : IdSupply), watch.submitted[g]? = some s ∧
    r = ⟨(s.request.run (g + 1) ids).1, s.time + debounce + s.duration⟩

/-- The worker has kept to the schedule. -/
structure OnSchedule (debounce : Nat) (watch : Watch) : Prop where
  /-- A request is handed to the compiler when its window has passed, unless another one has come in
  it. -/
  handed : ∀ g s, watch.submitted[g]? = some s →
    (g + 1 ∈ watch.started.map (·.event.generation) ↔
      s.time + debounce ≤ watch.worker.now ∧ watch.Quiet (g + 1) (s.time + debounce))
  /-- No request is handed over twice, nor after a later one. -/
  once : (watch.started.map (·.event.generation)).Pairwise (· < ·)
  compiled : ∀ r ∈ watch.started, watch.Compiles debounce r
  /-- A result is emitted when its compile has ended, unless another request has come before. -/
  emitted : ∀ g s, watch.submitted[g]? = some s →
    (g + 1 ∈ watch.emitted.map (·.generation) ↔
      s.time + debounce + s.duration ≤ watch.worker.now ∧
        watch.Quiet (g + 1) (s.time + debounce + s.duration))
  /-- What is emitted is what the compile of its generation gave. -/
  own : ∀ e ∈ watch.emitted, ∃ r ∈ watch.started, r.event = e
  increasing : (watch.emitted.map (·.generation)).Pairwise (· < ·)

end Watch

/-! ## The worker step by step -/

namespace Watch

/-- What is known of a worker between any two things it does. `ended` says which compiles it has
ended. -/
structure Tracked (debounce : Nat) (ended : Running → Bool) (watch : Watch) : Prop where
  window : watch.worker.debounce = debounce
  latest : watch.worker.generation = watch.submitted.length
  past : ∀ s ∈ watch.submitted, s.time ≤ watch.worker.now
  /-- The request that waits is the latest. It is overdue only where there is no window. -/
  waiting : ∀ w, watch.worker.waiting = some w → ∃ s, watch.submitted.getLast? = some s ∧
    w = ⟨watch.submitted.length, s.request, s.time + debounce⟩ ∧
    watch.worker.duration = s.duration ∧ watch.worker.now ≤ w.start ∧
    (watch.worker.now = w.start → debounce = 0)
  handed : ∀ g s, watch.submitted[g]? = some s →
    (g + 1 ∈ watch.started.map (·.event.generation) ↔
      (∀ w, watch.worker.waiting = some w → w.generation ≠ g + 1) ∧
        watch.Quiet (g + 1) (s.time + debounce))
  due : ∀ g s, watch.submitted[g]? = some s →
    g + 1 ∈ watch.started.map (·.event.generation) → s.time + debounce ≤ watch.worker.now
  once : (watch.started.map (·.event.generation)).Pairwise (· < ·)
  compiled : ∀ r ∈ watch.started, watch.Compiles debounce r
  running : watch.worker.running = watch.started.filter fun r => !ended r
  early : ∀ r ∈ watch.started, ended r = true → r.finish ≤ watch.worker.now
  /-- A compile that a later request found running is out of date. -/
  stale : ∀ r ∈ watch.started, r.event.generation < watch.submitted.length →
    watch.Quiet r.event.generation r.finish → ended r = true
  emitted : ∀ r ∈ watch.started, (r.event ∈ watch.emitted ↔
    ended r = true ∧ watch.Quiet r.event.generation r.finish)
  own : ∀ e ∈ watch.emitted, ∃ r ∈ watch.started, r.event = e
  increasing : (watch.emitted.map (·.generation)).Pairwise (· < ·)

/-- The compiles that are over when all that is due has happened. -/
def finished (watch : Watch) (r : Running) : Bool := decide (r.finish ≤ watch.worker.now)

theorem tracked_start (debounce : Nat) (ids : IdSupply) :
    (start debounce ids).Tracked debounce (start debounce ids).finished where
  window := rfl
  latest := rfl
  past := by simp [start]
  waiting := by simp [start, Worker.idle]
  handed := by simp [start]
  due := by simp [start]
  once := List.Pairwise.nil
  compiled := by simp [start]
  running := rfl
  early := by simp [start]
  stale := by simp [start]
  emitted := by simp [start]
  own := by simp [start, Watch.emitted, Worker.idle]
  increasing := List.Pairwise.nil

namespace Tracked

variable {debounce : Nat} {ended : Running → Bool} {watch : Watch}

theorem generation_le (h : watch.Tracked debounce ended) {r : Running} (hr : r ∈ watch.started) :
    1 ≤ r.event.generation ∧ r.event.generation ≤ watch.submitted.length := by
  obtain ⟨g, s, ids, hs, rfl⟩ := h.compiled r hr
  rw [CompileRequest.generation_run]
  have hlt : g < watch.submitted.length := (List.getElem?_eq_some_iff.mp hs).1
  omega

/-- The request that waits is known by its generation. -/
theorem start_of_waiting (h : watch.Tracked debounce ended) {w : Waiting}
    (hw : watch.worker.waiting = some w) {g : Nat} {s : Submission}
    (hs : watch.submitted[g]? = some s) (hg : w.generation = g + 1) :
    w.start = s.time + debounce := by
  obtain ⟨last, hlast, rfl, -⟩ := h.waiting w hw
  have hlen : watch.submitted.length = g + 1 := hg
  rw [List.getLast?_eq_getElem?, hlen, Nat.add_sub_cancel, hs] at hlast
  rw [Option.some.inj hlast]

/-- Generations tell compiles apart. -/
theorem unique (h : watch.Tracked debounce ended) {r r' : Running} (hr : r ∈ watch.started)
    (hr' : r' ∈ watch.started) (he : r.event.generation = r'.event.generation) : r = r' :=
  eq_of_key_eq (h.once.imp Nat.ne_of_lt) hr hr' he

/-- While a request waits, the compiles that have started are those of earlier ones. -/
theorem earlier (h : watch.Tracked debounce ended) {w : Waiting}
    (hw : watch.worker.waiting = some w) {r : Running} (hr : r ∈ watch.started) :
    r.event.generation < watch.submitted.length := by
  obtain ⟨s, hlast, rfl, -⟩ := h.waiting w hw
  have hlen : 0 < watch.submitted.length := List.length_pos_of_mem (List.mem_of_getLast? hlast)
  refine Nat.lt_of_le_of_ne (h.generation_le hr).2 fun he => ?_
  have hmem : watch.submitted.length - 1 + 1 ∈ watch.started.map (·.event.generation) :=
    List.mem_map.mpr ⟨r, hr, by omega⟩
  refine ((h.handed _ s (List.getLast?_eq_getElem?.symm.trans hlast)).mp hmem).1 _ hw ?_
  show watch.submitted.length = _
  omega

/-! ### Requests -/

theorem submitted_submit (request : CompileRequest) (duration : Nat) :
    (watch.step (.submit request duration)).submitted =
      watch.submitted ++ [⟨watch.worker.now, request, duration⟩] := rfl

theorem quiet_submit {request : CompileRequest} {duration g time : Nat}
    (hg : g ≤ watch.submitted.length) : (watch.step (.submit request duration)).Quiet g time ↔
      watch.Quiet g time ∧ time ≤ watch.worker.now := by
  rw [Quiet, submitted_submit, List.drop_append_of_le_length hg, List.forall_mem_append,
    List.forall_mem_singleton]
  rfl

/-- The request that waits is not overdue when another one comes. -/
theorem now_lt (h : watch.Tracked debounce ended) {request : CompileRequest} {duration : Nat}
    (hties : debounce = 0 →
      ((watch.step (.submit request duration)).submitted.map (·.time)).Nodup)
    {w : Waiting} (hw : watch.worker.waiting = some w) {g : Nat} {s : Submission}
    (hs : watch.submitted[g]? = some s) (hg : w.generation = g + 1) :
    watch.worker.now < s.time + debounce := by
  have hstart := h.start_of_waiting hw hs hg
  obtain ⟨-, -, -, -, hle, hnone⟩ := h.waiting w hw
  rw [hstart] at hle hnone
  refine Nat.lt_of_le_of_ne hle fun hnow => ?_
  -- there is no window, and the two requests came at the same time
  have hzero := hnone hnow
  have hnodup := hties hzero
  rw [submitted_submit, List.map_append, List.nodup_append] at hnodup
  refine hnodup.2.2 s.time (List.mem_map.mpr ⟨s, List.mem_of_getElem? hs, rfl⟩)
    watch.worker.now (by simp) ?_
  omega

section

variable (h : watch.Tracked debounce ended) {request : CompileRequest} {duration : Nat} {g : Nat}
  {s : Submission}

include h

/-- Nothing starts that has not been submitted. -/
theorem not_started (hg : watch.submitted.length ≤ g) :
    g + 1 ∉ watch.started.map (·.event.generation) := by
  intro hmem
  obtain ⟨r, hr, he⟩ := List.mem_map.mp hmem
  have hle := (h.generation_le hr).2
  omega

/-- When a request comes, those before it have started or never will. It waits itself. -/
theorem handed_submit (hties : debounce = 0 →
      ((watch.step (.submit request duration)).submitted.map (·.time)).Nodup)
    (hs : (watch.step (.submit request duration)).submitted[g]? = some s) :
    g + 1 ∈ watch.started.map (·.event.generation) ↔
      (∀ w, (watch.step (.submit request duration)).worker.waiting = some w →
        w.generation ≠ g + 1) ∧
      (watch.step (.submit request duration)).Quiet (g + 1) (s.time + debounce) := by
  rw [submitted_submit] at hs
  by_cases hg : g < watch.submitted.length
  · rw [List.getElem?_append_left hg] at hs
    rw [quiet_submit hg]
    constructor
    · intro hmem
      refine ⟨fun w hw => ?_, ((h.handed g s hs).mp hmem).2, h.due g s hs hmem⟩
      obtain rfl := Option.some.inj hw
      show watch.worker.generation + 1 ≠ g + 1
      rw [h.latest]
      omega
    · rintro ⟨-, hquiet, hdue⟩
      refine (h.handed g s hs).mpr ⟨fun w hw hwg => ?_, hquiet⟩
      exact absurd hdue (Nat.not_le_of_lt (h.now_lt hties hw hs hwg))
  · have hlt := (List.getElem?_eq_some_iff.mp hs).1
    rw [List.length_append, List.length_singleton] at hlt
    refine iff_of_false (h.not_started (Nat.le_of_not_lt hg)) fun hn => hn.1 _ rfl ?_
    show watch.worker.generation + 1 = g + 1
    rw [h.latest]
    omega

end

theorem submit (h : watch.Tracked debounce watch.finished) (request : CompileRequest) (duration : Nat)
    (hties : debounce = 0 →
      ((watch.step (.submit request duration)).submitted.map (·.time)).Nodup) :
    (watch.step (.submit request duration)).Tracked debounce
      (watch.step (.submit request duration)).finished where
  window := h.window
  latest := by
    show watch.worker.generation + 1 = (watch.submitted ++ [_]).length
    rw [h.latest, List.length_append, List.length_singleton]
  past := by
    show ∀ s ∈ watch.submitted ++ [_], s.time ≤ watch.worker.now
    rw [List.forall_mem_append, List.forall_mem_singleton]
    exact ⟨h.past, Nat.le_refl _⟩
  waiting := by
    rintro w hw
    obtain rfl := Option.some.inj hw
    refine ⟨⟨watch.worker.now, request, duration⟩, by simp [step], ?_, rfl, ?_, ?_⟩
    · simp [step, h.latest, h.window]
    · exact Nat.le_add_right _ _
    · show watch.worker.now = watch.worker.now + watch.worker.debounce → debounce = 0
      rw [h.window]
      omega
  handed := fun g s hs => h.handed_submit hties hs
  due := by
    intro g s hs hmem
    refine h.due g s ?_ hmem
    rwa [← List.getElem?_append_left (Nat.lt_of_not_le fun hg => h.not_started hg hmem)]
  once := h.once
  compiled := by
    intro r hr
    obtain ⟨g, s, ids, hs, he⟩ := h.compiled r hr
    refine ⟨g, s, ids, ?_, he⟩
    show (watch.submitted ++ [_])[g]? = some s
    rw [List.getElem?_append_left (List.getElem?_eq_some_iff.mp hs).1, hs]
  running := h.running
  early := h.early
  stale := by
    intro r hr _ hquiet
    exact decide_eq_true ((quiet_submit (h.generation_le hr).2).mp hquiet).2
  emitted := by
    intro r hr
    rw [quiet_submit (h.generation_le hr).2]
    refine (h.emitted r hr).trans ?_
    constructor
    · exact fun ⟨hover, hquiet⟩ => ⟨hover, hquiet, h.early r hr hover⟩
    · exact fun ⟨hover, hquiet, _⟩ => ⟨hover, hquiet⟩
  own := h.own
  increasing := h.increasing

theorem take (h : watch.Tracked debounce watch.finished) :
    (watch.step .take).Tracked debounce (watch.step .take).finished := by
  have hemitted : (watch.step .take).emitted = watch.emitted := List.append_nil _
  refine { h with emitted := ?_, own := ?_, increasing := ?_ }
  · rw [hemitted]
    exact h.emitted
  · rw [hemitted]
    exact h.own
  · rw [hemitted]
    exact h.increasing

end Tracked

end Watch

/-! ## Time -/

/-- What the compile of a request that waits comes to. -/
def Worker.compile (worker : Worker) (w : Waiting) : Running :=
  ⟨(w.request.run w.generation worker.ids).1, w.start + worker.duration⟩

/-- Either no request is due when time has passed, or the one that waits starts. -/
theorem Worker.startDue_elapse (worker : Worker) (time : Nat) :
    ((worker.elapse time).startDue = worker.elapse time ∧ worker.starting time = [] ∧
      ∀ w, worker.waiting = some w → worker.now + time < w.start) ∨
    ∃ w, worker.waiting = some w ∧ w.start ≤ worker.now + time ∧
      (worker.elapse time).startDue =
        { worker.elapse time with
          waiting := none
          running := worker.running ++ [worker.compile w]
          ids := (w.request.run w.generation worker.ids).2 } ∧
      worker.starting time = [worker.compile w] := by
  have hnone : (worker.elapse time).startDue = worker.elapse time →
      worker.starting time = [] := fun h => by
    rw [starting, h]
    exact List.drop_length
  cases hw : worker.waiting with
  | none =>
      have hsame : (worker.elapse time).startDue = worker.elapse time := by
        simp [startDue, elapse, hw]
      exact Or.inl ⟨hsame, hnone hsame, fun w h => by cases h⟩
  | some w =>
      by_cases hdue : w.start ≤ worker.now + time
      · have hstarts : (worker.elapse time).startDue =
            { worker.elapse time with
              waiting := none
              running := worker.running ++ [worker.compile w]
              ids := (w.request.run w.generation worker.ids).2 } := by
          simp [startDue, elapse, compile, hw, hdue]
        refine Or.inr ⟨w, rfl, hdue, hstarts, ?_⟩
        rw [starting, hstarts]
        exact List.drop_left
      · have hsame : (worker.elapse time).startDue = worker.elapse time := by
          simp [startDue, elapse, hw, hdue]
        exact Or.inl ⟨hsame, hnone hsame, fun v h => Option.some.inj h ▸ Nat.lt_of_not_le hdue⟩

namespace Watch

/-- Time has passed, and the request that is due has started, but no compile has ended. -/
def begun (watch : Watch) (time : Nat) : Watch :=
  { watch with
    worker := (watch.worker.elapse time).startDue
    started := watch.started ++ watch.worker.starting time }

/-- The compiles that had ended before the latest request started. -/
def endedBefore (watch : Watch) (r : Running) : Bool :=
  watch.finished r && decide (r.event.generation < watch.submitted.length)

namespace Tracked

variable {debounce time : Nat} {ended : Running → Bool} {watch : Watch}

/-- Nothing starts. -/
theorem elapse (h : watch.Tracked debounce watch.finished)
    (hw : ∀ w, watch.worker.waiting = some w → watch.worker.now + time < w.start) :
    { watch with worker := watch.worker.elapse time }.Tracked debounce watch.finished where
  window := h.window
  latest := h.latest
  past := fun s hs => Nat.le_add_right_of_le (h.past s hs)
  waiting := by
    intro w hsome
    obtain ⟨s, hs, he, hd, -, -⟩ := h.waiting w hsome
    have hlt := hw w hsome
    refine ⟨s, hs, he, hd, Nat.le_of_lt hlt, fun hnow => ?_⟩
    exact absurd hnow (Nat.ne_of_lt hlt)
  handed := h.handed
  due := fun g s hs hmem => Nat.le_add_right_of_le (h.due g s hs hmem)
  once := h.once
  compiled := h.compiled
  running := h.running
  early := fun r hr hover => Nat.le_add_right_of_le (h.early r hr hover)
  stale := h.stale
  emitted := h.emitted
  own := h.own
  increasing := h.increasing

/-! ### The request that waits starts -/

section

variable (h : watch.Tracked debounce ended) {w : Waiting} (hw : watch.worker.waiting = some w)

include h hw

/-- Its compile has the latest generation. -/
theorem generation_compile :
    (watch.worker.compile w).event.generation = watch.submitted.length := by
  obtain ⟨s, -, rfl, -⟩ := h.waiting w hw
  exact CompileRequest.generation_run ..

theorem compiles_compile : watch.Compiles debounce (watch.worker.compile w) := by
  obtain ⟨s, hlast, rfl, hduration, -⟩ := h.waiting w hw
  have hlen : 0 < watch.submitted.length := List.length_pos_of_mem (List.mem_of_getLast? hlast)
  refine ⟨_, s, watch.worker.ids, List.getLast?_eq_getElem?.symm.trans hlast, ?_⟩
  rw [Worker.compile, hduration, Nat.sub_add_cancel hlen]

theorem handed_compile {g : Nat} {s : Submission} (hs : watch.submitted[g]? = some s) :
    g + 1 ∈ (watch.started ++ [watch.worker.compile w]).map (·.event.generation) ↔
      watch.Quiet (g + 1) (s.time + debounce) := by
  rw [List.map_append, List.mem_append, List.map_singleton, List.mem_singleton,
    h.generation_compile hw]
  by_cases hg : g + 1 = watch.submitted.length
  · refine iff_of_true (Or.inr hg) fun x hx => ?_
    rw [hg, List.drop_length] at hx
    cases hx
  · rw [or_iff_left hg, h.handed g s hs]
    refine and_iff_right fun w' hw' => ?_
    obtain ⟨-, -, rfl, -⟩ := h.waiting w' hw'
    exact Ne.symm hg

theorem due_compile (hdue : w.start ≤ watch.worker.now + time) {g : Nat} {s : Submission}
    (hs : watch.submitted[g]? = some s)
    (hmem : g + 1 ∈ (watch.started ++ [watch.worker.compile w]).map (·.event.generation)) :
    s.time + debounce ≤ watch.worker.now + time := by
  rw [List.map_append, List.mem_append, List.map_singleton, List.mem_singleton,
    h.generation_compile hw] at hmem
  rcases hmem with hmem | hg
  · exact Nat.le_add_right_of_le (h.due g s hs hmem)
  · have hgeneration : w.generation = g + 1 := by
      obtain ⟨-, -, rfl, -⟩ := h.waiting w hw
      exact hg.symm
    exact h.start_of_waiting hw hs hgeneration ▸ hdue

theorem once_compile :
    ((watch.started ++ [watch.worker.compile w]).map (·.event.generation)).Pairwise (· < ·) := by
  rw [List.map_append, List.pairwise_append]
  refine ⟨h.once, List.pairwise_singleton _ _, fun g hg g' hg' => ?_⟩
  obtain ⟨x, hx, rfl⟩ := List.mem_map.mp hg
  rw [List.map_singleton, List.mem_singleton, h.generation_compile hw] at hg'
  exact hg' ▸ h.earlier hw hx

/-- All that had ended is of earlier requests. -/
theorem endedBefore_eq {r : Running} (hr : r ∈ watch.started) :
    watch.endedBefore r = watch.finished r := by
  rw [endedBefore, decide_eq_true (h.earlier hw hr), Bool.and_true]

theorem endedBefore_compile : watch.endedBefore (watch.worker.compile w) = false := by
  rw [endedBefore, h.generation_compile hw, decide_eq_false (Nat.lt_irrefl _), Bool.and_false]

/-- Nothing has been emitted of its compile. -/
theorem compile_not_emitted : (watch.worker.compile w).event ∉ watch.emitted := by
  intro hin
  obtain ⟨y, hy, he⟩ := h.own _ hin
  have hlt := h.earlier hw hy
  rw [he, h.generation_compile hw] at hlt
  exact Nat.lt_irrefl _ hlt

end

/-- The request that waits starts. -/
theorem starts (h : watch.Tracked debounce watch.finished) {w : Waiting}
    (hw : watch.worker.waiting = some w) (hdue : w.start ≤ watch.worker.now + time)
    (ids : IdSupply) :
    { watch with
      worker := { watch.worker.elapse time with
        waiting := none
        running := watch.worker.running ++ [watch.worker.compile w]
        ids := ids }
      started := watch.started ++ [watch.worker.compile w] }.Tracked debounce
        watch.endedBefore := by
  have hstarted : ∀ {P : Running → Prop}, (∀ x ∈ watch.started, P x) → P (watch.worker.compile w) →
      ∀ x ∈ watch.started ++ [watch.worker.compile w], P x := fun hold hnew =>
    List.forall_mem_append.mpr ⟨hold, List.forall_mem_singleton.mpr hnew⟩
  refine { h with
    past := fun s hs => Nat.le_add_right_of_le (h.past s hs)
    waiting := fun _ hnone => nomatch hnone
    handed := fun g s hs => (h.handed_compile hw hs).trans
      (and_iff_right fun _ hnone => nomatch hnone).symm
    due := fun g s hs => h.due_compile hw hdue hs
    once := h.once_compile hw
    compiled := hstarted h.compiled (h.compiles_compile hw)
    running := ?running
    early := hstarted (fun x hx hover => ?early) fun hover => ?earlyCompile
    stale := hstarted (fun x hx hlt hquiet => ?stale) fun hlt => ?staleCompile
    emitted := hstarted (fun x hx => ?emitted) ?emittedCompile
    own := ?own }
  case running =>
    show watch.worker.running ++ [watch.worker.compile w] = _
    rw [List.filter_append, h.running]
    refine congrArg₂ _ (List.filter_congr fun x hx => by rw [h.endedBefore_eq hw hx]) ?_
    rw [List.filter_cons_of_pos (by rw [h.endedBefore_compile hw]; rfl), List.filter_nil]
  case early =>
    rw [h.endedBefore_eq hw hx] at hover
    exact Nat.le_add_right_of_le (h.early x hx hover)
  case earlyCompile =>
    rw [h.endedBefore_compile hw] at hover
    cases hover
  case stale =>
    rw [h.endedBefore_eq hw hx]
    exact h.stale x hx hlt hquiet
  case staleCompile =>
    rw [h.generation_compile hw] at hlt
    exact absurd hlt (Nat.lt_irrefl _)
  case emitted =>
    rw [h.endedBefore_eq hw hx]
    exact h.emitted x hx
  case emittedCompile =>
    rw [h.endedBefore_compile hw]
    exact iff_of_false (h.compile_not_emitted hw) fun hn => nomatch hn.1
  case own =>
    intro e he
    obtain ⟨x, hx, rfl⟩ := h.own e he
    exact ⟨x, List.mem_append_left _ hx, rfl⟩

end Tracked

/-- What is sent when the compiles that are due end. -/
def current (watch : Watch) : List CompileEvent :=
  ((watch.worker.running.filter (·.finish ≤ watch.worker.now)).map (·.event)).filter
    (·.generation = watch.worker.generation)

/-- The compiles that are due have ended. -/
def settled (watch : Watch) : Watch := { watch with worker := watch.worker.finishDue }

theorem emitted_settled (watch : Watch) :
    watch.settled.emitted = watch.emitted ++ watch.current := by
  simp only [emitted, settled, Worker.finishDue, List.partition_eq_filter_filter, current,
    List.append_assoc]

namespace Tracked

variable {debounce : Nat} {ended : Running → Bool} {watch : Watch}

/-- What is sent is what the latest request gave, if its compile ends only now. -/
theorem mem_current (h : watch.Tracked debounce ended) {r : Running} (hr : r ∈ watch.started) :
    r.event ∈ watch.current ↔ r.event.generation = watch.submitted.length ∧ ended r = false ∧
      r.finish ≤ watch.worker.now := by
  rw [current, List.mem_filter, List.mem_map, h.running, h.latest]
  simp only [List.mem_filter, decide_eq_true_eq, Bool.not_eq_true']
  constructor
  · rintro ⟨⟨x, ⟨⟨hx, hended⟩, hfinish⟩, he⟩, hgen⟩
    obtain rfl := h.unique hx hr (congrArg (·.generation) he)
    exact ⟨hgen, hended, hfinish⟩
  · rintro ⟨hgen, hended, hfinish⟩
    exact ⟨⟨r, ⟨⟨hr, hended⟩, hfinish⟩, rfl⟩, hgen⟩

theorem own_current (h : watch.Tracked debounce ended) {e : CompileEvent}
    (he : e ∈ watch.current) : ∃ r ∈ watch.started, r.event = e := by
  obtain ⟨r, hr, rfl⟩ := List.mem_map.mp (List.mem_filter.mp he).1
  rw [h.running, List.filter_filter] at hr
  exact ⟨r, (List.mem_filter.mp hr).1, rfl⟩

/-- What is sent is the result of the latest request, so of one that no other has followed. -/
theorem emitted_settle (h : watch.Tracked debounce ended) {r : Running} (hr : r ∈ watch.started) :
    r.event ∈ watch.settled.emitted ↔
      watch.settled.finished r = true ∧ watch.Quiet r.event.generation r.finish := by
  rw [emitted_settled, List.mem_append, h.emitted r hr, h.mem_current hr]
  show _ ↔ decide (r.finish ≤ watch.worker.now) = true ∧ watch.Quiet r.event.generation r.finish
  rw [decide_eq_true_eq]
  constructor
  · rintro (⟨hended, hquiet⟩ | ⟨hgen, -, hfinish⟩)
    · exact ⟨h.early r hr hended, hquiet⟩
    · refine ⟨hfinish, fun s hs => ?_⟩
      rw [hgen, List.drop_length] at hs
      cases hs
  · rintro ⟨hfinish, hquiet⟩
    cases hended : ended r with
    | true => exact Or.inl ⟨rfl, hquiet⟩
    | false =>
        refine Or.inr ⟨?_, rfl, hfinish⟩
        refine Nat.le_antisymm (h.generation_le hr).2 (Nat.le_of_not_lt fun hlt => ?_)
        rw [h.stale r hr hlt hquiet] at hended
        cases hended

/-- What is sent at once has increasing generations, as all that has started. -/
theorem increasing_current (h : watch.Tracked debounce ended) :
    (watch.current.map (·.generation)).Pairwise (· < ·) := by
  have hsub : (watch.worker.running.filter (·.finish ≤ watch.worker.now)).Sublist
      watch.started := by
    rw [h.running]
    exact List.filter_sublist.trans List.filter_sublist
  have hsent : watch.current.Sublist (watch.started.map (·.event)) :=
    List.filter_sublist.trans (hsub.map _)
  have hgens := hsent.map CompileEvent.generation
  rw [List.map_map] at hgens
  exact h.once.sublist hgens

/-- What is sent has a later generation than all that was sent before. -/
theorem emitted_lt_current (h : watch.Tracked debounce ended) {e e' : CompileEvent}
    (he : e ∈ watch.emitted) (he' : e' ∈ watch.current) : e.generation < e'.generation := by
  obtain ⟨r, hr, rfl⟩ := h.own e he
  obtain ⟨r', hr', rfl⟩ := h.own_current he'
  obtain ⟨hgen, hrunning, -⟩ := (h.mem_current hr').mp he'
  refine Nat.lt_of_le_of_ne (hgen ▸ (h.generation_le hr).2) fun hsame => ?_
  rw [← h.unique hr hr' hsame, ((h.emitted r hr).mp he).1] at hrunning
  cases hrunning

/-- The compiles that are due end. -/
theorem settle (h : watch.Tracked debounce ended) :
    watch.settled.Tracked debounce watch.settled.finished where
  window := h.window
  latest := h.latest
  past := h.past
  waiting := h.waiting
  handed := h.handed
  due := h.due
  once := h.once
  compiled := h.compiled
  running := by
    show (watch.worker.running.partition (·.finish ≤ watch.worker.now)).2 =
      watch.started.filter fun r => !decide (r.finish ≤ watch.worker.now)
    rw [List.partition_eq_filter_filter, h.running]
    show (watch.started.filter _).filter _ = _
    rw [List.filter_filter]
    refine List.filter_congr fun r hr => ?_
    cases hended : ended r with
    | false => exact Bool.and_true _
    | true =>
        rw [decide_eq_true (h.early r hr hended)]
        exact Bool.and_false _
  early := fun r _ hover => by simpa [finished] using hover
  stale := by
    intro r hr hlt hquiet
    exact decide_eq_true (h.early r hr (h.stale r hr hlt hquiet))
  emitted := fun r hr => h.emitted_settle hr
  own := by
    intro e he
    rw [emitted_settled, List.mem_append] at he
    exact he.elim (h.own e) h.own_current
  increasing := by
    rw [emitted_settled, List.map_append, List.pairwise_append]
    refine ⟨h.increasing, h.increasing_current, fun g hg g' hg' => ?_⟩
    obtain ⟨e, he, rfl⟩ := List.mem_map.mp hg
    obtain ⟨e', he', rfl⟩ := List.mem_map.mp hg'
    exact h.emitted_lt_current he he'

theorem wait (h : watch.Tracked debounce watch.finished) (time : Nat) :
    (watch.step (.wait time)).Tracked debounce (watch.step (.wait time)).finished ∧
      ∀ w, (watch.step (.wait time)).worker.waiting = some w →
        (watch.step (.wait time)).worker.now < w.start := by
  have hstep : watch.step (.wait time) = (watch.begun time).settled := rfl
  rw [hstep, begun]
  rcases watch.worker.startDue_elapse time with ⟨hstart, hnew, hw⟩ | ⟨w, hw, hdue, hstart, hnew⟩
  · rw [hstart, hnew, List.append_nil]
    exact ⟨(h.elapse hw).settle, hw⟩
  · rw [hstart, hnew]
    exact ⟨(h.starts hw hdue _).settle, fun _ hnone => by cases hnone⟩

end Tracked

/-- Whatever is done to a worker, it keeps track. -/
theorem tracked_play (debounce : Nat) (ids : IdSupply) (ticks : List Tick)
    (hties : debounce = 0 →
      (((start debounce ids).play ticks).submitted.map (·.time)).Nodup) :
    ((start debounce ids).play ticks).Tracked debounce ((start debounce ids).play ticks).finished := by
  induction ticks using List.reverseRecOn with
  | nil => exact tracked_start debounce ids
  | append_singleton ticks tick ih =>
      rw [play_concat] at hties ⊢
      have hbefore : debounce = 0 →
          (((start debounce ids).play ticks).submitted.map (·.time)).Nodup := by
        intro hzero
        refine (hties hzero).sublist (List.Sublist.map _ ?_)
        cases tick with
        | wait time => exact List.Sublist.refl _
        | submit request duration => exact List.sublist_append_left _ _
        | take => exact List.Sublist.refl _
      cases tick with
      | wait time => exact ((ih hbefore).wait time).1
      | submit request duration => exact (ih hbefore).submit request duration hties
      | take => exact (ih hbefore).take

/-! ## The schedule -/

namespace Tracked

variable {debounce : Nat} {watch : Watch}

/-- A worker is on schedule when nothing that is due is left to do. -/
theorem onSchedule (h : watch.Tracked debounce watch.finished)
    (hw : ∀ w, watch.worker.waiting = some w → watch.worker.now < w.start) :
    watch.OnSchedule debounce := by
  have hhanded : ∀ g s, watch.submitted[g]? = some s →
      (g + 1 ∈ watch.started.map (·.event.generation) ↔
        s.time + debounce ≤ watch.worker.now ∧ watch.Quiet (g + 1) (s.time + debounce)) := by
    intro g s hs
    constructor
    · exact fun hmem => ⟨h.due g s hs hmem, ((h.handed g s hs).mp hmem).2⟩
    · rintro ⟨hdue, hquiet⟩
      refine (h.handed g s hs).mpr ⟨fun w hsome hgen => ?_, hquiet⟩
      have hlt := hw w hsome
      rw [h.start_of_waiting hsome hs hgen] at hlt
      exact absurd hdue (Nat.not_le_of_lt hlt)
  refine ⟨hhanded, h.once, h.compiled, fun g s hs => ?_, h.own, h.increasing⟩
  have hcompiled : ∀ r ∈ watch.started, r.event.generation = g + 1 →
      r.finish = s.time + debounce + s.duration := by
    intro r hr hgen
    obtain ⟨g', s', ids, hs', rfl⟩ := h.compiled r hr
    rw [CompileRequest.generation_run] at hgen
    rw [show g' = g by omega, hs] at hs'
    rw [Option.some.inj hs']
  constructor
  · intro hmem
    obtain ⟨e, he, hgen⟩ := List.mem_map.mp hmem
    obtain ⟨r, hr, rfl⟩ := h.own e he
    obtain ⟨hover, hquiet⟩ := (h.emitted r hr).mp he
    rw [hgen] at hquiet
    rw [← hcompiled r hr hgen]
    exact ⟨h.early r hr hover, hquiet⟩
  · rintro ⟨hfinish, hquiet⟩
    -- a window that is followed by a quiet compile was quiet itself
    have hstarted : g + 1 ∈ watch.started.map (·.event.generation) :=
      (hhanded g s hs).mpr ⟨Nat.le_trans (Nat.le_add_right _ _) hfinish,
        fun x hx => Nat.le_trans (Nat.le_add_right _ _) (hquiet x hx)⟩
    obtain ⟨r, hr, hgen⟩ := List.mem_map.mp hstarted
    rw [← hcompiled r hr hgen] at hfinish hquiet
    refine List.mem_map.mpr ⟨r.event, (h.emitted r hr).mpr ⟨decide_eq_true hfinish, ?_⟩, hgen⟩
    rw [hgen]
    exact hquiet

end Tracked

/-- When no request comes, nothing is sent but what the latest request gives. -/
theorem emitted_step (watch : Watch) {tick : Tick} (hq : tick.isQuiet = true) :
    ∃ late, (watch.step tick).emitted = watch.emitted ++ late ∧
      (∀ e ∈ late, e.generation = watch.worker.generation) ∧
      (watch.step tick).worker.generation = watch.worker.generation := by
  cases tick with
  | submit request duration => cases hq
  | take => exact ⟨[], by simp [step, emitted, Worker.take], by simp, rfl⟩
  | wait time =>
      have hbegun : (watch.begun time).emitted = watch.emitted ∧
          (watch.begun time).worker.generation = watch.worker.generation := by
        rcases (watch.worker.elapse time).startDue_eq with h | h
        · simp only [begun, emitted, h]
          exact ⟨rfl, rfl⟩
        · simp only [begun, emitted, h, Worker.delivered_expire, Worker.generation_expire]
          exact ⟨rfl, rfl⟩
      refine ⟨(watch.begun time).current, ?_, fun e he => ?_, hbegun.2⟩
      · rw [← hbegun.1]
        exact emitted_settled (watch.begun time)
      · rw [← hbegun.2]
        simpa using (List.mem_filter.mp he).2

theorem emitted_play (watch : Watch) {ticks : List Tick} (hq : ∀ t ∈ ticks, t.isQuiet = true) :
    ∃ late, (watch.play ticks).emitted = watch.emitted ++ late ∧
      ∀ e ∈ late, e.generation = watch.worker.generation := by
  induction ticks generalizing watch with
  | nil => exact ⟨[], (List.append_nil _).symm, by simp⟩
  | cons tick rest ih =>
      rw [List.forall_mem_cons] at hq
      obtain ⟨first, hfirst, hgen, hsame⟩ := watch.emitted_step hq.1
      obtain ⟨late, hlate, hgens⟩ := ih (watch.step tick) hq.2
      refine ⟨first ++ late, ?_, fun e he => ?_⟩
      · rw [← List.append_assoc, ← hfirst]
        exact hlate
      · rcases List.mem_append.mp he with he | he
        · exact hgen e he
        · exact (hgens e he).trans hsame

/-- **The worker keeps to the schedule.** Whatever requests come and whenever, once the worker has
had its turn the requests whose window has passed quietly have been handed over, each once, and the
results have been emitted that no request has overtaken. From then on, until a request comes,
nothing but the result of the latest one is emitted. Where there is no window, requests must not
come at the same time. -/
theorem keeps_schedule (debounce : Nat) (ids : IdSupply) (ticks : List Tick) (time : Nat)
    (hties : debounce = 0 →
      (((start debounce ids).play ticks).submitted.map (·.time)).Nodup) :
    ((start debounce ids).play (ticks ++ [.wait time])).OnSchedule debounce ∧
      ∀ more : List Tick, (∀ tick ∈ more, tick.isQuiet = true) →
        ∃ late, ((start debounce ids).play (ticks ++ [.wait time] ++ more)).emitted =
            ((start debounce ids).play (ticks ++ [.wait time])).emitted ++ late ∧
          ∀ e ∈ late, e.generation = ((start debounce ids).play ticks).submitted.length := by
  have htracked := (tracked_play debounce ids ticks hties).wait time
  rw [← play_concat] at htracked
  refine ⟨htracked.1.onSchedule htracked.2, fun more hq => ?_⟩
  obtain ⟨late, hlate, hgens⟩ :=
    ((start debounce ids).play (ticks ++ [.wait time])).emitted_play hq
  refine ⟨late, ?_, fun e he => (hgens e he).trans (htracked.1.latest.trans ?_)⟩
  · rw [← hlate, play, play, play, List.foldl_append]
  · rw [play_concat]
    rfl

/-- Two requests in a burst, and a third one while the second is compiled. -/
def overtaking : List Tick :=
  [.submit (.parse 0 "") 10, .wait 50, .submit (.parse 1 "") 500, .wait 200,
    .submit (.parse 2 "") 10]

/-- The second and the third are compiled, and only the third gives a result. -/
theorem overtaking_keeps_schedule :
    ((start 100 ⟨"a", 0⟩).play overtaking).submitted.map (·.time) = [0, 50, 250] ∧
    ((start 100 ⟨"a", 0⟩).play (overtaking ++ [.wait 1000])).started.map (·.event.generation) =
      [2, 3] ∧
    ((start 100 ⟨"a", 0⟩).play (overtaking ++ [.wait 1000])).emitted.map (·.generation) = [3] ∧
    ((start 100 ⟨"a", 0⟩).play (overtaking ++ [.wait 1000])).OnSchedule 100 :=
  ⟨by decide +kernel, by decide +kernel, by decide +kernel,
    (keeps_schedule 100 ⟨"a", 0⟩ overtaking 1000 fun _ => by decide +kernel).1⟩

end Watch

end ErModel
