import NanoDelta.Paper.Accounting
import NanoDelta.Paper.Database

/-!
# Durable paper execution

The PostgreSQL adapter of the paper ledger (`paper/postgres.py`). Every call opens
a transaction, hydrates the in-memory cache from the tables, lets the in-memory
engine compute the fill, writes the result back and commits; on any error it rolls
back and puts the two dictionaries back.

A call is a program over three things: the committed database, the transaction's
view of it with the number of statements issued so far, and the cache. Each
statement, from opening the connection to the commit, may fail: `Faults` says which
ones do, and with what error. A transaction that is rolled back leaves the committed
database as it was.

* `failed_call_leaves_no_trace`: a call that raises changes neither the database nor
  the cache, and a run is the run without the calls that raised.
-/

namespace NanoDelta.Paper.Postgres

open Library Risk

/-! ### Statements -/

/-- Which statements of a call fail, by their number, and with what error. -/
abbrev Faults := ℕ → Option PyError

/-- A call in which no statement fails. -/
def Faults.none : Faults := fun _ => .none

/-- An open connection. -/
structure Connection where
  /-- The database as the transaction sees it. -/
  database : Database
  /-- How many statements were issued. -/
  statements : ℕ

section Statements

variable (faults : Faults)

/-- Issue a statement. -/
def perform : EStateM PyError Connection Unit := do
  let c ← get
  set { c with statements := c.statements + 1 }
  match faults c.statements with
  | some e => throw e
  | none => return ()

/-- A statement that reads. -/
def read {α : Type} (query : Database → Except PyError α) : EStateM PyError Connection α := do
  perform faults
  let c ← get
  Effect.ofExcept (query c.database)

/-- A statement that writes. -/
def write (update : Database → Except PyError Database) : EStateM PyError Connection Unit := do
  perform faults
  let c ← get
  let database ← Effect.ofExcept (update c.database)
  set { c with database }

/-- `_lock_position`: an advisory lock that this transaction holds until it ends. -/
def lockPosition : EStateM PyError Connection Unit := perform faults

end Statements

variable (host : Host) (policy : ExecutionPolicy) (faults : Faults)

/-- The idempotency key is that of a managed exit of the position. -/
def managedExit (idempotencyKey : String) (position : PaperPosition) : Bool :=
  startsWith idempotencyKey ("exit:" ++ position.positionId ++ ":")

/-- The writes of `_execute_one` for a position that a managed exit closed. -/
def settleExit (reason : String) (position : PaperPosition) : EStateM PyError Connection Unit :=
  if reason ≠ "STOP" ∧ reason ≠ "TARGET" then
    throw (.valueError "paper exit idempotency key has an invalid reason")
  else do
    write faults (saveClosedOutcome host position)
    write faults (closeExitPlan reason position)

/-- The writes of `_execute_one`, after the in-memory engine has computed the receipt. -/
def persist (decision : RiskDecision) (idempotencyKey : String) (receipt : ExecutionReceipt)
    (priorRealized : ℚ) : EStateM PyError Connection Unit := do
  write faults (saveDecision decision)
  write faults (saveOrder idempotencyKey receipt.order)
  write faults (saveFill receipt.fill)
  write faults (savePosition receipt.position)
  write faults (saveOrderPositionSnapshot receipt.order.orderId receipt.position)
  write faults (saveRealization host receipt.fill receipt.position priorRealized)
  if receipt.position.state = .closed ∧ managedExit idempotencyKey receipt.position = true then
    settleExit host faults (afterLastColon idempotencyKey) receipt.position

/-! ### Calls -/

/-- What a call works on. -/
structure Session where
  /-- The committed database. -/
  committed : Database
  /-- The connection. -/
  connection : Connection
  /-- The cache: `_receipts` and `_positions`. -/
  memory : PaperExecutionEngine

/-- A program on the connection. -/
def onConnection {α : Type} (x : EStateM PyError Connection α) : EStateM PyError Session α :=
  Effect.focus Session.connection (fun s c => { s with connection := c }) x

/-- A program on the cache. -/
def onMemory {α : Type} (x : EStateM PyError PaperExecutionEngine α) : EStateM PyError Session α :=
  Effect.focus Session.memory (fun s m => { s with memory := m }) x

/-- The cache with the position that the database holds open for a key, if it holds one. -/
def hydrate (key : PositionKey) (current : Option PaperPosition) (memory : PaperExecutionEngine) :
    PaperExecutionEngine :=
  match current with
  | none => memory
  | some position => { memory with positions := memory.positions.set key position }

/-- `current.realized_pnl if current is not None else 0.0`. -/
def priorRealized (current : Option PaperPosition) : ℚ := (current.map PaperPosition.realizedPnl).getD 0

/-- `_execute_one`. -/
def executeOne (decision : RiskDecision) (idempotencyKey : String) (executedAt : DateTime) :
    EStateM PyError Session ExecutionReceipt :=
  if isBlank idempotencyKey then throw (.valueError "idempotency_key is required")
  else do
    onConnection (lockPosition faults)
    let existing ← onConnection (read faults (loadReceipt idempotencyKey))
    match existing with
    | some existing =>
      if existing.order.decisionId ≠ decision.decisionId then
        throw (.valueError "idempotency key is already bound to another decision")
      else do
        onMemory (modify fun memory => { memory with receipts := memory.receipts.set idempotencyKey existing })
        return existing
    | none =>
      if decision.approved = false then
        throw (.permissionError "paper execution requires an approved risk decision")
      else do
        let key := positionKey decision.intent
        let current ← onConnection (read faults (loadOpenPosition key))
        onMemory (modify (hydrate key current))
        let receipt ← onMemory (Paper.execute host policy decision idempotencyKey executedAt)
        onConnection (persist host faults decision idempotencyKey receipt (priorRealized current))
        return receipt

/-- `self._connect()`. -/
def connect : EStateM PyError Session Unit := do
  modify fun s => { s with connection := ⟨s.committed, 0⟩ }
  onConnection (perform faults)

/-- `connection.commit()`. -/
def commit : EStateM PyError Session Unit := do
  onConnection (perform faults)
  modify fun s => { s with committed := s.connection.database }

/-- The `try` statement that `execute` and `execute_batch` have in common. -/
def transact {α : Type} (body : EStateM PyError Session α) : EStateM PyError Session α := do
  connect faults
  let s ← get
  let receiptsBefore := s.memory.receipts
  let positionsBefore := s.memory.positions
  tryCatch (do
      let a ← body
      commit faults
      return a)
    fun e => do
      modify fun s =>
        { s with
          connection := { s.connection with database := s.committed }
          memory := ⟨receiptsBefore, positionsBefore⟩ }
      throw e

/-- `PostgresPaperExecutionEngine.execute`. -/
def execute (decision : RiskDecision) (idempotencyKey : String) (executedAt : DateTime) :
    EStateM PyError Session ExecutionReceipt :=
  transact faults (executeOne host policy faults decision idempotencyKey executedAt)

/-- `PostgresPaperExecutionEngine.execute_batch`. -/
def executeBatch (decisions : List RiskDecision) (batchId : String) (executedAt : DateTime) :
    EStateM PyError Session (List ExecutionReceipt) :=
  if isBlank batchId then throw (.valueError "batch_id is required")
  else if decisions.any fun decision => !decision.approved then
    throw (.permissionError "every batch risk decision must be approved")
  else if ¬ ((members batchId decisions).map Prod.fst).Nodup then
    throw (.valueError "batch contains duplicate risk decisions")
  else transact faults
    (Effect.each (fun m => executeOne host policy faults m.2 m.1 executedAt) (members batchId decisions))

/-- A call of the durable engine. -/
def run : Call → EStateM PyError Session (List ExecutionReceipt)
  | .execute decision key executedAt => (fun r => [r]) <$> execute host policy faults decision key executedAt
  | .executeBatch decisions batchId executedAt => executeBatch host policy faults decisions batchId executedAt

/-! ### Runs -/

/-- What other parts of the program write: the tables that rows refer to, the exit plans and the
outcomes. -/
structure Others where
  strategyApprovals : List String
  agentEvidence : List String
  outcomes : List OutcomeRow
  exitPlans : List ExitPlanRow

/-- The database with these tables as they write them. -/
def Others.into (others : Others) (db : Database) : Database :=
  { db with
    strategyApprovals := others.strategyApprovals
    agentEvidence := others.agentEvidence
    outcomes := others.outcomes
    exitPlans := others.exitPlans }

/-- The database and the cache of one engine. -/
structure Store where
  database : Database
  memory : PaperExecutionEngine

/-- What can happen to the database and one engine. -/
inductive Input where
  /-- A call, some of whose statements may fail. -/
  | call (call : Call) (faults : Faults)
  /-- The engine is started again, with an empty cache. -/
  | restart
  /-- Other parts of the program write their tables. -/
  | others (tables : Others)

/-- The session a call starts in. -/
def Store.session (s : Store) : Session := ⟨s.database, ⟨s.database, 0⟩, s.memory⟩

/-- What a session leaves: the committed database and the cache. -/
def Session.store (s : Session) : Store := ⟨s.committed, s.memory⟩

/-- One engine on its database, as a machine. -/
def engine : Machine Store Input (Except PyError (List ExecutionReceipt)) where
  step s
    | .call call faults =>
      ((Effect.final (run host policy faults call s.session)).store, outcome (run host policy faults call s.session))
    | .restart => ({ s with memory := .new }, .ok [])
    | .others tables => ({ s with database := tables.into s.database }, .ok [])

/-! ### Calls that raise -/

variable {host policy faults}

theorem keeps_onConnection {α : Type} (x : EStateM PyError Connection α) :
    Effect.Keeps Session.committed (onConnection x) := by
  unfold onConnection
  refine Effect.keeps_focus ?_ x
  exact fun _ _ => rfl

theorem keeps_onMemory {α : Type} (x : EStateM PyError PaperExecutionEngine α) :
    Effect.Keeps Session.committed (onMemory x) := by
  unfold onMemory
  refine Effect.keeps_focus ?_ x
  exact fun _ _ => rfl

/-- `_execute_one` does not touch the committed database. -/
theorem keeps_executeOne (decision : RiskDecision) (idempotencyKey : String) (executedAt : DateTime) :
    Effect.Keeps Session.committed (executeOne host policy faults decision idempotencyKey executedAt) := by
  unfold executeOne
  split
  · exact fun _ => rfl
  · refine (keeps_onConnection _).bind fun _ => (keeps_onConnection _).bind fun existing => ?_
    cases existing with
    | some existing =>
      simp only
      split
      · exact fun _ => rfl
      · exact (keeps_onMemory _).bind fun _ => Effect.keeps_pure _
    | none =>
      simp only
      split
      · exact fun _ => rfl
      · exact (keeps_onConnection _).bind fun _ => (keeps_onMemory _).bind fun _ =>
          (keeps_onMemory _).bind fun _ => (keeps_onConnection _).bind fun _ => Effect.keeps_pure _

/-- Nor does a loop over members. -/
theorem keeps_members (ms : List (String × RiskDecision)) (executedAt : DateTime) :
    Effect.Keeps Session.committed
      (Effect.each (fun m => executeOne host policy faults m.2 m.1 executedAt) ms) := by
  refine Effect.Keeps.each ?_ ms
  exact fun m => keeps_executeOne m.2 m.1 executedAt

/-- Opening the connection does not touch the committed database and the cache. -/
theorem keeps_connect : Effect.Keeps Session.store (connect faults) := by
  intro s
  show Session.store (Effect.final (onConnection (perform faults) { s with connection := ⟨s.committed, 0⟩ })) = _
  unfold onConnection
  refine Effect.keeps_focus (f := Session.store) ?_ (perform faults) _
  exact fun _ _ => rfl

/-- A commit that fails leaves the committed database. -/
theorem commit_error {s s' : Session} {e : PyError} (h : commit faults s = .error e s') :
    s'.committed = s.committed := by
  unfold commit at h
  rcases Effect.bind_eq_error.mp h with h | ⟨_, s₁, _, h⟩
  · exact (keeps_onConnection _).of_error h
  · cases h

/-- A transaction that raises leaves the committed database and the cache. -/
theorem transact_error {α : Type} {body : EStateM PyError Session α}
    (hbody : Effect.Keeps Session.committed body) {s s' : Session} {e : PyError}
    (h : transact faults body s = .error e s') : s'.store = s.store := by
  unfold transact at h
  rcases Effect.bind_eq_error.mp h with h | ⟨_, s₁, hconnect, h⟩
  · exact keeps_connect.of_error h
  rw [← keeps_connect.of_ok hconnect]
  rw [Effect.bind_of_ok (Effect.get_apply s₁), Effect.tryCatch_apply] at h
  cases htry : (do let a ← body; commit faults; return a : EStateM PyError Session α) s₁ with
  | ok a s₂ => rw [htry] at h; cases h
  | error e' s₂ =>
    rw [htry] at h
    cases h
    -- the error came from the body or from the commit
    have hcommitted : s₂.committed = s₁.committed := by
      rcases Effect.bind_eq_error.mp htry with hb | ⟨a, s₃, hb, hc⟩
      · exact hbody.of_error hb
      · rcases Effect.bind_eq_error.mp hc with hc | ⟨_, s₄, _, hc⟩
        · exact (commit_error hc).trans (hbody.of_ok hb)
        · cases hc
    show Store.mk s₂.committed _ = Store.mk s₁.committed _
    rw [hcommitted]

/-- A call that raises leaves the committed database and the cache. -/
theorem run_error {call : Call} {s s' : Session} {e : PyError} (h : run host policy faults call s = .error e s') :
    s'.store = s.store := by
  cases call with
  | execute decision key executedAt =>
    simp only [run, Effect.map_apply] at h
    cases hx : execute host policy faults decision key executedAt s with
    | ok r s₁ => rw [hx] at h; cases h
    | error e₁ s₁ =>
      rw [hx] at h
      cases h
      exact transact_error (keeps_executeOne decision key executedAt) hx
  | executeBatch decisions batchId executedAt =>
    simp only [run, executeBatch] at h
    split at h
    · cases h; rfl
    · split at h
      · cases h; rfl
      · split at h
        · cases h; rfl
        · exact transact_error (keeps_members (members batchId decisions) executedAt) h

/-- The output of a call that raised. -/
def raised {α : Type} : Except PyError α → Bool
  | .ok _ => false
  | .error _ => true

theorem exists_of_not_raised {α : Type} {x : Except PyError α} (h : raised x = false) : ∃ a, x = .ok a := by
  cases x with
  | ok a => exact ⟨a, rfl⟩
  | error e => cases h

/-- A step that raises changes nothing. -/
theorem step_raised (s : Store) (input : Input) (h : raised ((engine host policy).step s input).2 = true) :
    ((engine host policy).step s input).1 = s := by
  cases input with
  | call call faults =>
    simp only [engine] at h ⊢
    cases hrun : run host policy faults call s.session with
    | ok rs s' => rw [hrun] at h; cases h
    | error e s' => exact run_error hrun
  | restart => cases h
  | others tables => cases h

/-- **A failed call leaves no trace.** Whatever statements fail in whatever calls of a run: a call
that raises leaves the database and the cache as they were before it; and the run ends in the same
database and cache, and the other calls return the same, as if the calls that raised had never been
made. -/
theorem failed_call_leaves_no_trace (host : Host) (policy : ExecutionPolicy) (s : Store) (inputs : List Input) :
    (∀ (call : Call) (faults : Faults) (e : PyError),
      ((engine host policy).step ((engine host policy).exec s inputs) (.call call faults)).2 = .error e →
      ((engine host policy).step ((engine host policy).exec s inputs) (.call call faults)).1 =
        (engine host policy).exec s inputs) ∧
    (engine host policy).exec s ((engine host policy).keep raised s inputs) = (engine host policy).exec s inputs ∧
    (engine host policy).outputs s ((engine host policy).keep raised s inputs) =
      ((engine host policy).outputs s inputs).filter fun o => !raised o := by
  refine ⟨?_, Machine.exec_keep step_raised s inputs, Machine.outputs_keep step_raised s inputs⟩
  intro call faults e h
  exact step_raised _ _ (by rw [h]; rfl)

/-- A database whose paper tables are empty. -/
def Others.initial (others : Others) : Database := others.into {}

/-- The approval of the sample decisions. -/
def Others.sample : Others := ⟨["approval-1"], [], [], []⟩

end NanoDelta.Paper.Postgres
