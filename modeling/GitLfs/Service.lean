import GitLfs.Failure
import GitLfs.Log
import GitLfs.Message.Batch

/-!
# Services and their collaborators

A collaborator is asked: it may look at and change its own state, report events, and answer or fail.
A service asks collaborators, reports events itself, and puts the answers together. What a service
does leaves a trace: the calls it made, in order, and the log records of the run.

A collaborator sees neither the trace nor the records, so whatever it does, the trace tells which
calls the service made.
-/

namespace GitLfs

/-- What a collaborator works on: its state and the events that it has reported so far. -/
structure Scene (σ : Type) where
  state : σ
  events : List Event

/-- A question to a collaborator with state `σ`. -/
abbrev Query (σ : Type) := ExceptT Failure (StateM (Scene σ))

namespace Query

variable {σ τ α : Type}

/-- The collaborator's state. -/
def state : Query σ σ := do return (← get).state

/-- Sets the collaborator's state. -/
def setState (s : σ) : Query σ Unit := modify fun scene => { scene with state := s }

/-- Reports an event. -/
def report (e : Event) : Query σ Unit :=
  modify fun scene => { scene with events := scene.events ++ [e] }

/-- Fails with a refusal. -/
def refuse (r : Refusal) : Query σ α := throw (.refusal r)

/-- Fails with a defect. -/
def defect (d : Defect) : Query σ α := throw (.defect d)

/-- An outcome that is known already. -/
def ofExcept : Except Failure α → Query σ α
  | .ok a => pure a
  | .error e => throw e

/-- A question to a collaborator whose state is a part of a larger one. -/
def focus (part : σ → τ) (update : τ → σ → σ) (q : Query τ α) : Query σ α := fun scene =>
  let (answer, inner) := q.run.run ⟨part scene.state, scene.events⟩
  (answer, ⟨update inner.state scene.state, inner.events⟩)

end Query

/-- A call that a service makes on one of its collaborators. -/
inductive Call where
  /-- The access policy for the repository at a path. -/
  | policyFor (path : Option String)
  /-- The object store for a batch request on the repository at a path. -/
  | storeFor (request : BatchRequest) (path authorization : Option String)
  /-- The lock keeper for the repository at a path. -/
  | keeperFor (path : Option String)
  | mayRead (ref user : Option String)
  | mayWrite (ref user : Option String)
  | objectSize (oid : String)
  | downloadAction (oid : String)
  | uploadAction (oid : String) (size : Nat)
  | verifyAction (oid : String)
  | createLock (path : String) (ref user : Option String)
  | listLocks (path id cursor : Option String) (limit : Int) (ref : Option String)
  | locksToVerify (ref user cursor : Option String) (limit : Int)
  | deleteLock (id : String) (ref user : Option String) (force : Bool)
  | isAdministrator (user : Option String)
  deriving DecidableEq, Repr

/-- How far a service has come. -/
structure Progress (σ : Type) where
  /-- The state of the collaborators. -/
  state : σ
  /-- The calls made so far. -/
  calls : List Call
  /-- The log records made so far. -/
  records : List Record
  /-- The request that is being answered. -/
  requestId : Option String
  /-- The level that the loggers are set to. -/
  level : Level
  /-- The milliseconds of each span of time that is still to be measured, which nobody foresees. -/
  delays : Nat → Nat

/-- Something that a service does, with collaborators that have state `σ`. -/
abbrev Service (σ : Type) := ExceptT Failure (StateM (Progress σ))

namespace Progress

variable {σ : Type}

/-- Before anything has been done, when the clock stands still. -/
def start (state : σ) (level : Level) : Progress σ := ⟨state, [], [], none, level, fun _ => 0⟩

/-- One record more, unless the loggers are set to a level above it. -/
def add (r : Record) (p : Progress σ) : Progress σ :=
  if p.level.admits r.level then { p with records := p.records ++ [r] } else p

/-- Events become records of the request that is being answered. -/
def report (events : List Event) (p : Progress σ) : Progress σ :=
  events.foldl (fun p e => p.add { e with requestId := Log.stamp p.requestId }) p

end Progress

namespace Service

variable {σ α : Type}

/-- Adds a record. -/
def record (r : Record) : Service σ Unit := modify (Progress.add r)

/-- Reports an event. -/
def report (level : Level) (logger message : String) : Service σ Unit :=
  modify (Progress.report [⟨level, Log.logger logger, message⟩])

/-- The milliseconds that have passed since the service was turned to. -/
def elapsed : Service σ Nat :=
  modifyGet fun p => (p.delays 0, { p with delays := fun n => p.delays (n + 1) })

/-- Fails with a refusal. -/
def refuse (r : Refusal) : Service σ α := throw (.refusal r)

/-- Asks a collaborator; the call goes into the trace before it is made. -/
def ask (call : Call) (q : Query σ α) : Service σ α := fun p =>
  let (answer, scene) := q.run.run ⟨p.state, []⟩
  (answer, { p with state := scene.state, calls := p.calls ++ [call] }.report scene.events)

/-- The outcome of something, as a value. -/
def attempt (x : Service σ α) : Service σ (Except Failure α) := fun p =>
  let (outcome, p) := x.run.run p
  (.ok outcome, p)

/-- An outcome that is known already. -/
def ofExcept : Except Failure α → Service σ α
  | .ok a => pure a
  | .error e => throw e

end Service

/-- Where a service finds a collaborator: always the same one, if any, or looked up for each request
by something about it. -/
inductive Source (σ κ α : Type) where
  | fixed (collaborator : Option α)
  | lookup (find : κ → Query σ (Option α))

namespace Source

variable {σ κ α : Type}

/-- The collaborator for a request. Only a look-up is a call. -/
def resolve (source : Source σ κ α) (call : κ → Call) (key : κ) : Service σ (Option α) :=
  match source with
  | .fixed collaborator => pure collaborator
  | .lookup find => Service.ask (call key) (find key)

end Source

end GitLfs
