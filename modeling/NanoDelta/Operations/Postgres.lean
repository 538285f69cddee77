import Mathlib.Logic.Function.Basic
import NanoDelta.Library.Dict
import NanoDelta.Library.Machine
import NanoDelta.Library.Table
import NanoDelta.Operations.Controller
import NanoDelta.Runtime.Supervisor

/-!
# The operational store

`PostgresOperationalStore` and `PostgresRuntimeStateStore` over one database, used by the controllers of several replicas
and by the workers. Every query and every transaction that writes has its own connection. What such a transaction writes is
locked from the write to the commit, and it reads nothing, so it is one step; between the queries of a command and its
transaction, and between a snapshot and its transaction, the others run.

* `Control`: the tables. `commitTransition`, `commitQueuedCommand`, `save`: the transactions.
* `replicas`: commands and publications over one database as a machine.
-/

namespace NanoDelta.Operations

open Library NanoDelta.Runtime

/-! ### Tables -/

/-- A row of `control.runtime_workers`. -/
structure WorkerRow where
  state : WorkerState
  lastHeartbeat : Option Instant := none
  deriving DecidableEq, Repr

/-- The states of a queued command. -/
inductive QueueState where
  | pending
  | running
  | succeeded
  | failed
  deriving DecidableEq, Repr

/-- A row of `control.runtime_command_queue`. -/
structure QueueRow where
  commandId : String
  idempotencyKey : String
  market : Market
  command : Command
  state : QueueState := .pending
  attempts : ℕ := 0
  requestedAt : Instant
  claimedAt : Option Instant := none
  completedAt : Option Instant := none
  instanceId : Option String := none
  lastError : Option String := none
  deriving DecidableEq, Repr

/-- The tables of the schema `control` that the runtime is operated with. -/
structure Control where
  runtimeWorkers : Dict Market WorkerRow := .empty
  runtimeInstances : Dict Market WorkerSnapshot := .empty
  operationalAudit : List AuditRecord := []
  runtimeCommandQueue : List QueueRow := []

namespace Control

variable (db : Control)

/-- `worker_state`. Without a row it is the state that a controller starts with, since its own writes insert the row. -/
def workerState (market : Market) : WorkerState := (db.runtimeWorkers.get? market).elim .stopped WorkerRow.state

/-- `audit_record`. -/
def auditRecord (idempotencyKey : String) : Option AuditRecord :=
  db.operationalAudit.find? fun record => record.idempotencyKey = idempotencyKey

/-- The row of a worker after `state` is set: its heartbeat is kept. -/
def setState (market : Market) (state : WorkerState) : Control :=
  { db with
    runtimeWorkers := db.runtimeWorkers.set market
      ⟨state, (db.runtimeWorkers.get? market).bind WorkerRow.lastHeartbeat⟩ }

/-- `commit_transition`: the record is kept unless its key has one, and the state is set. -/
def commitTransition (record : AuditRecord) : Except PyError Control := do
  let operationalAudit ← Table.insertOrSkip True (fun row => row.idempotencyKey = record.idempotencyKey)
    (∀ row ∈ db.operationalAudit, row.auditId ≠ record.auditId) (.databaseError "operational_audit_pkey") record
    db.operationalAudit
  return { db with operationalAudit }.setState record.market record.resultingState

/-- `commit_queued_command`: the record and the command are inserted. -/
def commitQueuedCommand (record : AuditRecord) : Except PyError Control :=
  if ∃ row ∈ db.operationalAudit, row.idempotencyKey = record.idempotencyKey ∨ row.auditId = record.auditId then
    .error (.databaseError "operational_audit")
  else if record.command = .repair ∨ ∃ row ∈ db.runtimeCommandQueue,
      row.idempotencyKey = record.idempotencyKey ∨ row.commandId = record.auditId then
    .error (.databaseError "runtime_command_queue")
  else
    .ok { db with
      operationalAudit := db.operationalAudit ++ [record]
      runtimeCommandQueue := db.runtimeCommandQueue ++
        [{ commandId := record.auditId, idempotencyKey := record.idempotencyKey, market := record.market,
           command := record.command, requestedAt := record.requestedAt }] }

/-- `PostgresRuntimeStateStore.save`: the instance's row, and the worker's, if there is one and it has a name for the
state. -/
def save (snapshot : WorkerSnapshot) : Control :=
  let db := { db with runtimeInstances := db.runtimeInstances.set snapshot.market snapshot }
  match snapshot.state.workerState, db.runtimeWorkers.get? snapshot.market with
  | some state, some _ =>
    { db with runtimeWorkers := db.runtimeWorkers.set snapshot.market ⟨state, some snapshot.lastHeartbeat⟩ }
  | _, _ => db

/-- The state that the row of a snapshot's worker is set to, if it is. -/
def published (snapshot : WorkerSnapshot) : Option WorkerState :=
  if db.runtimeWorkers.get? snapshot.market = none then none else snapshot.state.workerState

@[simp] theorem workerState_setState (market other : Market) (state : WorkerState) :
    (db.setState market state).workerState other = if other = market then state else db.workerState other := by
  unfold workerState setState
  dsimp only
  rw [Dict.get?_set]
  split_ifs <;> rfl

/-- **A transition sets the state** of its market. -/
theorem workerState_commitTransition {record : AuditRecord} {db' : Control} (h : db.commitTransition record = .ok db')
    (market : Market) :
    db'.workerState market = if market = record.market then record.resultingState else db.workerState market := by
  obtain ⟨operationalAudit, -, h⟩ := Effect.except_bind_eq_ok.mp h
  cases h
  exact workerState_setState ..

/-- **A publication sets the state** of its market, or none. -/
theorem workerState_save (snapshot : WorkerSnapshot) (market : Market) :
    (db.save snapshot).workerState market =
      if market = snapshot.market then (db.published snapshot).getD (db.workerState market) else db.workerState market := by
  unfold save published
  dsimp only
  cases hrow : db.runtimeWorkers.get? snapshot.market with
  | none =>
    cases snapshot.state.workerState <;> simp [workerState]
  | some row =>
    cases snapshot.state.workerState with
    | none => simp [workerState]
    | some state =>
      simp only [workerState, Dict.get?_set, reduceCtorEq, if_false, Option.getD_some]
      split_ifs <;> rfl

theorem workerState_commitQueuedCommand {record : AuditRecord} {db' : Control}
    (h : db.commitQueuedCommand record = .ok db') : db'.workerState = db.workerState := by
  unfold commitQueuedCommand at h
  split_ifs at h
  cases h
  rfl

/-- The record that is kept for a transition's key is the one it had, or the new one. -/
theorem auditRecord_commitTransition {record : AuditRecord} {db' : Control} (h : db.commitTransition record = .ok db') :
    db'.auditRecord record.idempotencyKey = some ((db.auditRecord record.idempotencyKey).getD record) := by
  obtain ⟨operationalAudit, hinsert, h⟩ := Effect.except_bind_eq_ok.mp h
  cases h
  have haudit : ({ db with operationalAudit }.setState record.market record.resultingState).auditRecord
      record.idempotencyKey = operationalAudit.find? fun row => row.idempotencyKey = record.idempotencyKey := rfl
  rw [haudit]
  rcases (Table.insertOrSkip_eq_ok.mp hinsert).2 with ⟨⟨row, hrow, hkey⟩, rfl⟩ | ⟨hfree, -, rfl⟩
  · cases hfind : db.auditRecord record.idempotencyKey with
    | none => exact absurd (decide_eq_true hkey) (List.find?_eq_none.mp hfind row hrow)
    | some kept => exact hfind
  · have hnone : db.auditRecord record.idempotencyKey = none := by
      rw [auditRecord, List.find?_eq_none]
      intro row hrow hkey
      exact hfree row hrow (of_decide_eq_true hkey)
    rw [hnone, List.find?_append]
    have hfind : db.operationalAudit.find? (fun row => row.idempotencyKey = record.idempotencyKey) = none := hnone
    rw [hfind]
    simp

end Control

/-! ### Replicas over one database -/

/-- A command or a publication under way, before its next query or transaction. A publication carries the state that was
stored when its snapshot was taken. -/
inductive Stage where
  | readAudit (controller : RuntimeController) (request : Request)
  | readState (controller : RuntimeController) (request : Request)
  | commit (controller : RuntimeController) (record : AuditRecord)
  | save (snapshot : WorkerSnapshot) (seen : WorkerState)

/-- A state that was written: by which market's writer, the state it had seen, and the state it wrote. -/
structure Update where
  market : Market
  seen : WorkerState
  written : WorkerState
  deriving DecidableEq, Repr

/-- The database, what is under way, and the states written so far, in order. -/
structure Replicas where
  db : Control
  underway : ℕ → Option Stage := fun _ => none
  updates : List Update := []

/-- What can happen. -/
inductive Input where
  /-- A controller is called, as `i`. -/
  | call (i : ℕ) (controller : RuntimeController) (request : Request)
  /-- A worker takes a snapshot to publish, as `i`. -/
  | publish (i : ℕ) (snapshot : WorkerSnapshot)
  /-- The next query or transaction of `i`. With a failure it raises: the database's, or that of a worker's method. -/
  | advance (i : ℕ) (failure : Option PyError)

/-- `i` comes to a stage, or ends. -/
def Replicas.goto (s : Replicas) (i : ℕ) (stage : Option Stage) : Replicas :=
  { s with underway := Function.update s.underway i stage }

/-- The transaction of a stage: the tables, with the update it makes. -/
def Stage.transaction (db : Control) : Stage → Option (Except PyError (Control × List Update) × Option AuditRecord)
  | .commit controller record =>
    if controller.queues record.command then some ((db.commitQueuedCommand record).map (·, []), some record)
    else some ((db.commitTransition record).map
      (·, [⟨record.market, record.previousState, record.resultingState⟩]), some record)
  | .save snapshot seen =>
    some (.ok (db.save snapshot, ((db.published snapshot).map fun state => ⟨snapshot.market, seen, state⟩).toList), none)
  | _ => none

variable (host : Host)

/-- What follows a query: another stage, or the end of the command. -/
def Stage.query (db : Control) (failure : Option PyError) : Stage → Except PyError (Stage ⊕ AuditRecord)
  | .readAudit controller request => do
    if let some e := failure then throw e
    match ← request.replay (db.auditRecord request.idempotencyKey) with
    | some record => return .inr record
    | none => return .inl (.readState controller request)
  | .readState controller request => do
    let record ← controller.decide host request (db.workerState request.market) failure
    return .inl (.commit controller record)
  | stage => return .inl stage

/-- Commands and publications over one database. A command gives its record, or what it raises. -/
def replicas : Machine Replicas Input (Option (Except PyError (Option AuditRecord))) where
  step s
    | .call i controller request =>
      match s.underway i, request.begin with
      | some _, _ => (s, none)
      | none, .ok () => (s.goto i (some (.readAudit controller request)), none)
      | none, .error e => (s, some (.error e))
    | .publish i snapshot =>
      match s.underway i with
      | some _ => (s, none)
      | none => (s.goto i (some (.save snapshot (s.db.workerState snapshot.market))), none)
    | .advance i failure =>
      match s.underway i with
      | none => (s, none)
      | some stage =>
        match stage.transaction s.db with
        | some (result, record) =>
          match failure, result with
          | some e, _ => (s.goto i none, some (.error e))
          | none, .ok (db, updates) =>
            ({ s with db, updates := s.updates ++ updates }.goto i none, some (.ok record))
          | none, .error e => (s.goto i none, some (.error e))
        | none =>
          match stage.query host s.db failure with
          | .ok (.inl stage') => (s.goto i (some stage'), none)
          | .ok (.inr record) => (s.goto i none, some (.ok (some record)))
          | .error e => (s.goto i none, some (.error e))

end NanoDelta.Operations
