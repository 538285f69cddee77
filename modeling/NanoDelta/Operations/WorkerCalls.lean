import Mathlib
import NanoDelta.Operations.Postgres

/-!
# Commands and the methods of workers

`operations/controller.py`, `RuntimeController.command`, with the worker methods that it calls: a store that may raise in
every call, and a worker's method that may raise too. The timestamp is checked, and the record is committed, after the
call of the method.

* `command_clean_iff`: when a command that raises has left workers and store alone.
* `naive_start`: a worker is started, and the command raises.
-/

namespace NanoDelta.Operations

open Library

/-! ### The store and the workers -/

/-- What a controller asks of its store. A call that raises leaves it as it was. -/
structure OperationalStore (σ : Type) where
  auditRecord : σ → String → Except PyError (Option AuditRecord)
  workerState : σ → Market → Except PyError WorkerState
  commitTransition : σ → AuditRecord → Except PyError σ
  commitQueuedCommand : σ → AuditRecord → Except PyError σ

/-- The states and the audit records of `OperationalStore`, in memory. -/
structure MemoryOperations where
  workers : Market → WorkerState := fun _ => .stopped
  audit : Dict String AuditRecord := .empty

/-- `OperationalStore`. -/
def OperationalStore.memory : OperationalStore MemoryOperations where
  auditRecord store key := .ok (store.audit.get? key)
  workerState store market := .ok (store.workers market)
  commitTransition store record := .ok
    { workers := Function.update store.workers record.market record.resultingState
      audit := store.audit.set record.idempotencyKey record }
  commitQueuedCommand _ _ := .error (.runtimeError "durable runtime command mailbox is not configured")

/-- `PostgresOperationalStore`, while the database answers. -/
def OperationalStore.postgres : OperationalStore Control where
  auditRecord db key := .ok (db.auditRecord key)
  workerState db market := .ok (db.workerState market)
  commitTransition := Control.commitTransition
  commitQueuedCommand := Control.commitQueuedCommand

/-- A store, and the methods of workers that were invoked, in order. -/
structure World (σ : Type) where
  store : σ
  invoked : List (Market × Command) := []

/-- The command is for a worker of this process. -/
def RuntimeController.invokes (controller : RuntimeController) (command : Command) : Bool :=
  !controller.durableCommands && command ≠ .repair

section Command

variable {σ : Type} (host : Host) (ops : OperationalStore σ) (controller : RuntimeController)
  (failure : Market → Command → Option PyError) (request : Request)

/-- What `command` does before its effects: the record that is replayed, or the state before the command. -/
def admitted (store : σ) : Except PyError (AuditRecord ⊕ WorkerState) := do
  request.begin
  let existing ← ops.auditRecord store request.idempotencyKey
  match ← request.replay existing with
  | some record => return .inl record
  | none => do
    let previous ← ops.workerState store request.market
    if request.command = .drain ∧ previous ≠ .running then
      throw (.runtimeError "only a running worker can drain")
    else if controller.invokes request.command ∧ request.market ∉ controller.workers then
      throw (.runtimeError (request.market.value ++ " worker is not configured"))
    else return .inr previous

/-- The method of the worker is invoked, if the command is for one, and may raise. -/
def callWorker : EStateM PyError (World σ) PUnit :=
  if controller.invokes request.command then do
    modify fun world => { world with invoked := world.invoked ++ [(request.market, request.command)] }
    match failure request.market request.command with
    | some e => throw e
    | none => return
  else return

/-- The record of a command. -/
def recordOf (previous : WorkerState) (requestedAt : Instant) : AuditRecord where
  auditId := stableId host [request.idempotencyKey, request.market.value, request.command.value]
  idempotencyKey := request.idempotencyKey
  market := request.market
  command := request.command
  actorId := request.actor.actorId
  previousState := previous
  resultingState := if controller.queues request.command then previous else request.command.resulting previous
  requestedAt := requestedAt
  detail := request.detail

/-- The commit of a record. -/
def commitRecord (store : σ) (record : AuditRecord) : Except PyError σ :=
  if controller.queues request.command then ops.commitQueuedCommand store record else ops.commitTransition store record

/-- The record of a command, and the store with it. -/
def recorded (store : σ) (previous : WorkerState) : Except PyError (AuditRecord × σ) := do
  let requestedAt ← utc request.requestedAt "requested_at"
  let record := recordOf host controller request previous requestedAt
  let store ← commitRecord ops controller request store record
  return (record, store)

/-- The record is committed. -/
def commit (previous : WorkerState) : EStateM PyError (World σ) AuditRecord := do
  let (record, store) ← Effect.ofExcept (recorded host ops controller request (← get).store previous)
  modify fun world => { world with store }
  return record

/-- `RuntimeController.command`. -/
def command : EStateM PyError (World σ) AuditRecord := do
  match ← Effect.ofExcept (admitted ops controller request (← get).store) with
  | .inl record => return record
  | .inr previous => do
    callWorker controller failure request
    commit host ops controller request previous

/-! ### Failures -/

variable (world : World σ)

/-- The command comes to the method of the worker. -/
def Reaches : Prop :=
  controller.invokes request.command = true ∧ ∃ previous, admitted ops controller request world.store = .ok (.inr previous)

/-- The command can be recorded: the timestamp is aware, and the store takes the record. -/
def Recordable : Prop :=
  ∃ requestedAt, request.requestedAt = .aware requestedAt ∧
    ∀ previous, admitted ops controller request world.store = .ok (.inr previous) →
      ∃ store, commitRecord ops controller request world.store (recordOf host controller request previous requestedAt) =
        .ok store

/-- If the command raises, and not because the method of the worker did, no method was invoked and the store is as it
was. -/
def Clean : Prop :=
  ∀ e world', command host ops controller failure request world = .error e world' →
    Reaches ops controller request world ∧ failure request.market request.command ≠ none ∨ world' = world

/-- A key that has a record: nothing is invoked or written, and the same command gets its record. -/
def Replays : Prop :=
  ∀ record, ops.auditRecord world.store request.idempotencyKey = .ok (some record) →
    Effect.final (command host ops controller failure request world) = world ∧
    (request.actor.canOperate = true → isBlank request.idempotencyKey = false → record.market = request.market →
      record.command = request.command → record.detail = request.detail →
        command host ops controller failure request world = .ok record world)

variable {host ops controller failure request world}

/-- A command that is refused does nothing else. -/
theorem command_of_error {e : PyError} (h : admitted ops controller request world.store = .error e) :
    command host ops controller failure request world = .error e world := by
  unfold command
  simp only [Effect.bind_apply, get, getThe, MonadStateOf.get, EStateM.get, h]
  rfl

theorem command_of_record {record : AuditRecord} (h : admitted ops controller request world.store = .ok (.inl record)) :
    command host ops controller failure request world = .ok record world := by
  unfold command
  simp only [Effect.bind_apply, get, getThe, MonadStateOf.get, EStateM.get, h]
  rfl

theorem command_of_previous {previous : WorkerState}
    (h : admitted ops controller request world.store = .ok (.inr previous)) :
    command host ops controller failure request world =
      (do
        callWorker controller failure request
        commit host ops controller request previous : EStateM PyError (World σ) AuditRecord) world := by
  unfold command
  simp only [Effect.bind_apply, get, getThe, MonadStateOf.get, EStateM.get, h]
  rfl

/-- A replay is over before the effects. -/
theorem admitted_of_record {record : AuditRecord}
    (h : ops.auditRecord world.store request.idempotencyKey = .ok (some record)) :
    admitted ops controller request world.store = do
      request.begin
      if record.market ≠ request.market ∨ record.command ≠ request.command ∨ record.detail ≠ request.detail then
        throw (.valueError "idempotency key is bound to another command")
      else return .inl record := by
  unfold admitted
  rw [h]
  cases request.begin with
  | error e => rfl
  | ok =>
    by_cases hother : record.market ≠ request.market ∨ record.command ≠ request.command ∨ record.detail ≠ request.detail
    · have hreplay : request.replay (some record) = .error (.valueError "idempotency key is bound to another command") :=
        if_pos hother
      rw [if_pos hother]
      simp only [bind, Except.bind, hreplay]
      rfl
    · have hreplay : request.replay (some record) = .ok (some record) := if_neg hother
      rw [if_neg hother]
      simp only [bind, Except.bind, hreplay]

/-- **Replays**: they invoke and write nothing. -/
theorem replays : Replays host ops controller failure request world := by
  intro record h
  have hadmitted := @admitted_of_record σ ops controller request world record h
  constructor
  · cases hresult : admitted ops controller request world.store with
    | error e => rw [command_of_error hresult, Effect.final]
    | ok next =>
      rw [hresult] at hadmitted
      obtain ⟨_, -, hnext⟩ := Effect.except_bind_eq_ok.mp hadmitted.symm
      split_ifs at hnext
      cases hnext
      rw [command_of_record hresult, Effect.final]
  · intro hoperate hkey hmarket hcommand hdetail
    apply command_of_record
    have hbegin : request.begin = .ok () := by simp [Request.begin, hoperate, hkey]
    rw [hadmitted, hbegin, if_neg (by simp [hmarket, hcommand, hdetail])]
    rfl

/-- The world after the method of the worker was invoked. -/
def World.called (world : World σ) (request : Request) : World σ :=
  { world with invoked := world.invoked ++ [(request.market, request.command)] }

theorem World.called_ne (world : World σ) (request : Request) : world.called request ≠ world := by
  intro h
  have hinvoked := congrArg World.invoked h
  simp [World.called] at hinvoked

/-- A record that is not committed leaves everything as it was. -/
theorem commit_of_error {previous : WorkerState} {e : PyError}
    (h : recorded host ops controller request world.store previous = .error e) :
    commit host ops controller request previous world = .error e world := by
  unfold commit
  simp only [Effect.bind_apply, get, getThe, MonadStateOf.get, EStateM.get, h]
  rfl

theorem commit_of_ok {previous : WorkerState} {next : AuditRecord × σ}
    (h : recorded host ops controller request world.store previous = .ok next) :
    commit host ops controller request previous world = .ok next.1 { world with store := next.2 } := by
  unfold commit
  simp only [Effect.bind_apply, get, getThe, MonadStateOf.get, EStateM.get, h]
  rfl

theorem of_commit_error {previous : WorkerState} {e : PyError} {world' : World σ}
    (h : commit host ops controller request previous world = .error e world') : world' = world := by
  cases hrecorded : recorded host ops controller request world.store previous with
  | error e' =>
    rw [commit_of_error hrecorded] at h
    cases h
    rfl
  | ok next =>
    rw [commit_of_ok hrecorded] at h
    cases h

theorem callWorker_of_quiet (h : controller.invokes request.command = false) :
    callWorker controller failure request world = .ok () world := by
  unfold callWorker
  rw [h]
  rfl

theorem callWorker_of_success (h : controller.invokes request.command = true)
    (hfailure : failure request.market request.command = none) :
    callWorker controller failure request world = .ok () (world.called request) := by
  unfold callWorker
  rw [h, hfailure]
  rfl

theorem recordable_iff {previous : WorkerState} (h : admitted ops controller request world.store = .ok (.inr previous)) :
    Recordable host ops controller request world ↔
      ∃ next, recorded host ops controller request world.store previous = .ok next := by
  constructor
  · rintro ⟨t, htime, hcommit⟩
    obtain ⟨store, hstore⟩ := hcommit previous h
    refine ⟨(recordOf host controller request previous t, store), ?_⟩
    unfold recorded
    rw [htime]
    simp only [utc, bind, Except.bind, hstore]
    rfl
  · rintro ⟨next, hnext⟩
    obtain ⟨t, ht, hnext⟩ := Effect.except_bind_eq_ok.mp hnext
    obtain ⟨store, hstore, -⟩ := Effect.except_bind_eq_ok.mp hnext
    cases htime : request.requestedAt with
    | naive wall =>
      rw [htime] at ht
      cases ht
    | aware t' =>
      rw [htime] at ht
      cases ht
      refine ⟨t, htime, ?_⟩
      intro previous' h'
      rw [h] at h'
      cases h'
      exact ⟨store, hstore⟩

/-- A command that raises for another reason than the method of a worker leaves everything as it was, just if it does not
come to the method, or can be recorded. -/
theorem clean_iff : Clean host ops controller failure request world ↔
    (Reaches ops controller request world → failure request.market request.command = none →
      Recordable host ops controller request world) := by
  cases hadmitted : admitted ops controller request world.store with
  | error e =>
    refine iff_of_true ?_ ?_
    · intro e' world' h
      rw [command_of_error hadmitted] at h
      cases h
      exact Or.inr rfl
    · rintro ⟨-, previous, hprevious⟩
      rw [hadmitted] at hprevious
      cases hprevious
  | ok next =>
    cases next with
    | inl record =>
      refine iff_of_true ?_ ?_
      · intro e' world' h
        rw [command_of_record hadmitted] at h
        cases h
      · rintro ⟨-, previous, hprevious⟩
        rw [hadmitted] at hprevious
        cases hprevious
    | inr previous =>
      have hcommand : command host ops controller failure request world =
          (do
            callWorker controller failure request
            commit host ops controller request previous : EStateM PyError (World σ) AuditRecord) world :=
        command_of_previous hadmitted
      cases hinvokes : controller.invokes request.command with
      | false =>
        refine iff_of_true ?_ ?_
        · intro e world' h
          rw [hcommand, Effect.bind_of_ok (callWorker_of_quiet hinvokes)] at h
          exact Or.inr (of_commit_error h)
        · rintro ⟨hreaches, -⟩
          rw [hinvokes] at hreaches
          cases hreaches
      | true =>
        cases hfailure : failure request.market request.command with
        | some e =>
          refine iff_of_true ?_ ?_
          · intro e' world' _
            exact Or.inl ⟨⟨hinvokes, previous, hadmitted⟩, by simp [hfailure]⟩
          · rintro - hnone
            cases hnone
        | none =>
          rw [Effect.bind_of_ok (callWorker_of_success hinvokes hfailure)] at hcommand
          have hreaches : Reaches ops controller request world := ⟨hinvokes, previous, hadmitted⟩
          rw [recordable_iff hadmitted]
          constructor
          · intro hclean _ _
            cases hrecorded : recorded host ops controller request world.store previous with
            | ok next => exact ⟨next, rfl⟩
            | error e =>
              -- the method was invoked, and the record is refused
              have hcommit : commit host ops controller request previous (world.called request) =
                  .error e (world.called request) := commit_of_error hrecorded
              rw [hcommit] at hcommand
              rcases hclean e _ hcommand with ⟨-, hne⟩ | hsame
              · exact absurd hfailure hne
              · exact absurd hsame (world.called_ne request)
          · intro hrecordable e world' h
            obtain ⟨next, hnext⟩ := hrecordable hreaches rfl
            have hcommit : commit host ops controller request previous (world.called request) =
                .ok next.1 { world.called request with store := next.2 } := commit_of_ok hnext
            rw [hcommand, hcommit] at h
            cases h

variable (host ops controller failure request world) in
/-- **Failures and replays**: for every store, a command that raises, unless the method of the worker does, has invoked no
method and written nothing, and a replay gives the record that is kept, just if a command that comes to the method of a
worker, and for which that does not raise, has an aware timestamp and the store takes its record. -/
theorem command_clean_iff :
    Clean host ops controller failure request world ∧ Replays host ops controller failure request world ↔
      (Reaches ops controller request world → failure request.market request.command = none →
        Recordable host ops controller request world) := by
  rw [and_iff_left replays]
  exact clean_iff

end Command

/-! ### A naive timestamp -/

namespace Sample

/-- The start of the NSE worker, with a timestamp that has no time zone. -/
def naiveStart : Request where
  market := .nse
  command := .start
  actor := ⟨"operator", "operator"⟩
  idempotencyKey := "start-1"
  confirmed := true
  requestedAt := .naive 0

end Sample

/-- The worker is started, the command raises, and there is neither a state nor a record of the start. -/
theorem naive_start :
    command .cpython .memory { workers := [.nse] } (fun _ _ => none) Sample.naiveStart ⟨{}, []⟩ =
      .error (.valueError "requested_at must be timezone-aware") ⟨{}, [(.nse, .start)]⟩ := rfl

end NanoDelta.Operations
