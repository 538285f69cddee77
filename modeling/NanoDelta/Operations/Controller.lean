import NanoDelta.Contracts
import NanoDelta.Library.Effect

/-!
# The runtime controller

`operations/controller.py`: who may operate the runtime, the states of a worker, the commands, and the audit record that
a command leaves. `RuntimeController.command` is taken apart at its calls of the store: `begin`, `replay`, `decide`.
-/

namespace NanoDelta.Operations

open Library

/-- `WorkerState`. -/
inductive WorkerState where
  | stopped
  | running
  | draining
  deriving DecidableEq, Repr

/-- `Command`. -/
inductive Command where
  | start
  | stop
  | drain
  | repair
  deriving DecidableEq, Repr

/-- `Command.value`. -/
def Command.value : Command → String
  | .start => "start"
  | .stop => "stop"
  | .drain => "drain"
  | .repair => "repair"

/-- `Actor`. -/
structure Actor where
  actorId : String
  role : String
  deriving DecidableEq, Repr

/-- `Actor.can_operate`. -/
def Actor.canOperate (actor : Actor) : Bool := actor.role = "operator" || actor.role = "admin"

/-- `AuditRecord`. -/
structure AuditRecord where
  auditId : String
  idempotencyKey : String
  market : Market
  command : Command
  actorId : String
  previousState : WorkerState
  resultingState : WorkerState
  requestedAt : Instant
  detail : String
  deriving DecidableEq, Repr

/-! ### `RuntimeController.command` -/

/-- `RuntimeController`, without its store: the markets whose workers it has. -/
structure RuntimeController where
  workers : List Market := []
  durableCommands : Bool := false

/-- The arguments of `command`. -/
structure Request where
  market : Market
  command : Command
  actor : Actor
  idempotencyKey : String
  confirmed : Bool
  requestedAt : DateTime
  detail : String := ""

/-- The checks before the store is asked. -/
def Request.begin (request : Request) : Except PyError PUnit :=
  if ¬ request.actor.canOperate then .error (.permissionError "operator or admin role is required")
  else if isBlank request.idempotencyKey then .error (.valueError "idempotency key is required")
  else .ok ()

/-- What follows the query for the key: the record that is kept for it is returned, if it is of the same command. -/
def Request.replay (request : Request) (existing : Option AuditRecord) : Except PyError (Option AuditRecord) :=
  match existing with
  | some record =>
    if record.market ≠ request.market ∨ record.command ≠ request.command ∨ record.detail ≠ request.detail then
      .error (.valueError "idempotency key is bound to another command")
    else .ok (some record)
  | none => if ¬ request.confirmed then .error (.permissionError "explicit confirmation is required") else .ok none

/-- `transitions[command]`. -/
def Command.resulting (previous : WorkerState) : Command → WorkerState
  | .start => .running
  | .stop => .stopped
  | .drain => .draining
  | .repair => previous

/-- A command that is left to a worker in another process. -/
def RuntimeController.queues (controller : RuntimeController) (command : Command) : Bool :=
  controller.durableCommands && command ≠ .repair

/-- What follows the query for the state: the checks, with the call of the worker that may raise `failure`, and the record. -/
def RuntimeController.decide (host : Host) (controller : RuntimeController) (request : Request) (previous : WorkerState)
    (failure : Option PyError) : Except PyError AuditRecord := do
  if request.command = .drain ∧ previous ≠ .running then
    throw (.runtimeError "only a running worker can drain")
  else if request.command ≠ .repair ∧ controller.durableCommands = false ∧ request.market ∉ controller.workers then
    throw (.runtimeError (request.market.value ++ " worker is not configured"))
  else
    match failure with
    | some e => throw e
    | none => do
      let resulting := if controller.queues request.command then previous else request.command.resulting previous
      let requestedAt ← utc request.requestedAt "requested_at"
      return ⟨stableId host [request.idempotencyKey, request.market.value, request.command.value],
        request.idempotencyKey, request.market, request.command, request.actor.actorId, previous, resulting, requestedAt,
        request.detail⟩

/-- A record keeps what the request asks for and what was read. -/
theorem of_decide {host : Host} {controller : RuntimeController} {request : Request} {previous : WorkerState}
    {failure : Option PyError} {record : AuditRecord}
    (h : controller.decide host request previous failure = .ok record) :
    record.idempotencyKey = request.idempotencyKey ∧ record.market = request.market ∧ record.command = request.command ∧
      record.previousState = previous ∧
      record.resultingState = (if controller.queues request.command then previous else request.command.resulting previous) := by
  unfold RuntimeController.decide at h
  split at h
  · cases h
  split at h
  · cases h
  cases failure with
  | some e => cases h
  | none =>
    obtain ⟨requestedAt, -, h⟩ := Effect.except_bind_eq_ok.mp h
    cases h
    exact ⟨rfl, rfl, rfl, rfl, rfl⟩

end NanoDelta.Operations
