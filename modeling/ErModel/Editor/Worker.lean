import ErModel.Source.Describe

/-!
# The compile worker

Compiling is put off while requests keep coming. The worker keeps the latest request and starts it
when nothing has been submitted for a while; the result is delivered when the compile ends, but
only if no request has come in since. Every request has a generation, one more than the one before,
and its result carries it.

Time is a number that only `advance` moves, so a run of the worker is a value like any other.
-/

namespace ErModel

/-- Work for the compiler, with the revision of the editor's schema that it was asked for. -/
inductive CompileRequest where
  | serialize (revision : Nat) (schema : Schema)
  | parse (revision : Nat) (source : String)

/-- The revision that a request was made for. -/
def CompileRequest.revision : CompileRequest → Nat
  | .serialize revision _ | .parse revision _ => revision

/-- What a compile gives. -/
inductive CompileEvent where
  | source (generation revision : Nat) (text : String)
  /-- A schema with new ids throughout. -/
  | parsed (generation revision : Nat) (schema : Schema)
  | failed (generation : Nat) (error : Source.CompileError)

/-- The generation of the request that an event answers. -/
def CompileEvent.generation : CompileEvent → Nat
  | .source generation _ _ | .parsed generation _ _ | .failed generation _ => generation

/-- Compiles. -/
def CompileRequest.run (request : CompileRequest) (generation : Nat) (ids : IdSupply) :
    CompileEvent × IdSupply :=
  match request with
  | .serialize revision schema =>
    match Source.textOfValid schema with
    | .ok text => (.source generation revision text, ids)
    | .error error => (.failed generation error, ids)
  | .parse revision source =>
    match Source.compile source ids with
    | (.ok schema, ids) => (.parsed generation revision schema, ids)
    | (.error error, ids) => (.failed generation error, ids)

/-- The latest request, not started yet. -/
structure Waiting where
  generation : Nat
  request : CompileRequest
  /-- When it starts, if no other request comes first. -/
  start : Nat

/-- A compile under way. -/
structure Running where
  event : CompileEvent
  /-- When it ends. -/
  finish : Nat

/-- The worker at one moment. -/
structure Worker where
  /-- How long nothing may be submitted before a compile starts. -/
  debounce : Nat
  /-- How long a compile takes. -/
  duration : Nat
  now : Nat
  /-- The generation of the latest request: how many requests there have been. The program counts
  in 64 bits, as for `Editor.revision`; here the count has no bound. -/
  generation : Nat
  waiting : Option Waiting
  running : List Running
  /-- Events that nobody has taken yet, the oldest first. -/
  delivered : List CompileEvent
  ids : IdSupply

namespace Worker

/-- A worker without work. -/
def idle (debounce duration : Nat) (ids : IdSupply) : Worker :=
  ⟨debounce, duration, 0, 0, none, [], [], ids⟩

/-- Takes a request in place of the one that waits; the result is its generation. -/
def submit (worker : Worker) (request : CompileRequest) : Worker × Nat :=
  let generation := worker.generation + 1
  ({ worker with
      generation := generation
      waiting := some ⟨generation, request, worker.now + worker.debounce⟩ }, generation)

/-- Starts the request that waits, if it is due. -/
def startDue (worker : Worker) : Worker :=
  match worker.waiting with
  | none => worker
  | some waiting =>
    if waiting.start ≤ worker.now then
      let (event, ids) := waiting.request.run waiting.generation worker.ids
      { worker with
        waiting := none
        running := worker.running ++ [⟨event, waiting.start + worker.duration⟩]
        ids := ids }
    else worker

/-- Ends the compiles that are due, and delivers what is not out of date. -/
def finishDue (worker : Worker) : Worker :=
  let (done, running) := worker.running.partition (·.finish ≤ worker.now)
  let current := (done.map (·.event)).filter (·.generation = worker.generation)
  { worker with running := running, delivered := worker.delivered ++ current }

/-- Lets time pass. -/
def advance (worker : Worker) (time : Nat) : Worker :=
  { worker with now := worker.now + time }.startDue.finishDue

/-- Takes the events that have been delivered. -/
def take (worker : Worker) : Worker × List CompileEvent :=
  ({ worker with delivered := [] }, worker.delivered)

end Worker

end ErModel
