import NanoDelta.Library.AverageCost
import NanoDelta.Library.Dict
import NanoDelta.Library.Effect
import NanoDelta.Library.Machine
import NanoDelta.Risk.Engine

/-!
# Paper execution

The in-memory paper ledger (`paper/execution.py`): immediate market fills with
slippage and fees, keyed by an idempotency key, netted into one position per
market, account and symbol.

A method of the engine is a program over its two dictionaries, `_receipts` and
`_positions`; what it wrote before it raises stays written unless the code puts
it back. `execute_cases` says everything that a call of `execute` can do, and the
rest of the development uses that lemma instead of the body.
-/

namespace NanoDelta.Paper

open Library Risk

/-! ### Records -/

/-- `OrderState`. -/
inductive OrderState where
  | filled
  deriving DecidableEq

/-- `OrderState.value`. -/
def OrderState.value : OrderState → String
  | .filled => "FILLED"

/-- `PositionState`. -/
inductive PositionState where
  | opened
  | closed
  deriving DecidableEq

/-- `PositionState.value`. -/
def PositionState.value : PositionState → String
  | .opened => "OPEN"
  | .closed => "CLOSED"

/-- `ExecutionPolicy`. -/
structure ExecutionPolicy where
  slippageBps : ℚ
  feeBps : ℚ
  /-- Neither is negative. -/
  nonneg : 0 ≤ slippageBps ∧ 0 ≤ feeBps

/-- `PaperOrder`. -/
structure PaperOrder where
  orderId : String
  idempotencyKey : String
  decisionId : String
  market : Market
  accountId : String
  symbol : String
  action : AdvisoryAction
  quantity : ℚ
  state : OrderState
  submittedAt : Instant
  deriving DecidableEq

/-- `PaperFill`. -/
structure PaperFill where
  fillId : String
  orderId : String
  quantity : ℚ
  price : ℚ
  fee : ℚ
  filledAt : Instant
  deriving DecidableEq

/-- `PaperPosition`. -/
structure PaperPosition where
  positionId : String
  market : Market
  accountId : String
  symbol : String
  signedQuantity : ℚ
  averageEntryPrice : ℚ
  realizedPnl : ℚ
  totalFees : ℚ
  openedAt : Instant
  updatedAt : Instant
  closedAt : Option Instant
  state : PositionState
  decisionIds : List String
  strategyKeys : List String
  approvalIds : List String
  goldSnapshotIds : List String
  agentEvidenceIds : List String
  deriving DecidableEq

/-- `ExecutionReceipt`. -/
structure ExecutionReceipt where
  order : PaperOrder
  fill : PaperFill
  position : PaperPosition
  deriving DecidableEq

/-- The key of a position: market, account and symbol. -/
abbrev PositionKey := Market × String × String

/-- The key of the position an intent trades. -/
def positionKey (intent : TradeIntent) : PositionKey := (intent.market, intent.accountId, intent.symbol)

/-- The key of the position an order trades. -/
def PaperOrder.key (order : PaperOrder) : PositionKey := (order.market, order.accountId, order.symbol)

/-- The key of a position. -/
def PaperPosition.key (position : PaperPosition) : PositionKey :=
  (position.market, position.accountId, position.symbol)

/-! ### Fills -/

/-- `tuple(dict.fromkeys(items))`: the items without repetition, first occurrences kept. -/
def fromkeys (items : List String) : List String :=
  items.foldl (fun acc item => if item ∈ acc then acc else acc ++ [item]) []

/-- `(intent.agent_evidence_id,) if intent.agent_evidence_id else ()`. -/
def agentEvidence (intent : TradeIntent) : List String :=
  match intent.agentEvidenceId with
  | none => []
  | some evidence => if evidence = "" then [] else [evidence]

/-- The id of a position opened by a fill. -/
def positionIdOf (host : Host) (intent : TradeIntent) (fillId : String) : String :=
  stableId host ["paper-position", intent.market.value, intent.accountId, intent.symbol, fillId]

/-- The position a fill opens. -/
def openPosition (host : Host) (decision : RiskDecision) (fill : PaperFill) : PaperPosition :=
  let intent := decision.intent
  { positionId := positionIdOf host intent fill.fillId
    market := intent.market
    accountId := intent.accountId
    symbol := intent.symbol
    signedQuantity := signed intent.action fill.quantity
    averageEntryPrice := fill.price
    realizedPnl := 0
    totalFees := fill.fee
    openedAt := fill.filledAt
    updatedAt := fill.filledAt
    closedAt := none
    state := .opened
    decisionIds := [decision.decisionId]
    strategyKeys := [intent.identity.key host]
    approvalIds := [intent.approvalId]
    goldSnapshotIds := intent.goldSnapshotIds
    agentEvidenceIds := agentEvidence intent }

/-- The part of `_apply_fill` for a position that is open. -/
def netFill (host : Host) (current : PaperPosition) (decision : RiskDecision) (fill : PaperFill) :
    PaperPosition :=
  let intent := decision.intent
  let delta := signed intent.action fill.quantity
  let old := current.signedQuantity
  let new := old + delta
  let average :=
    if 0 < old * delta then (|old| * current.averageEntryPrice + |delta| * fill.price) / |new|
    else if new = 0 then 0
    else if old * new < 0 then fill.price
    else current.averageEntryPrice
  let realized :=
    if 0 < old * delta then current.realizedPnl
    else current.realizedPnl +
      min |old| |delta| * (fill.price - current.averageEntryPrice) * (if 0 < old then 1 else -1)
  { current with
    signedQuantity := new
    averageEntryPrice := average
    realizedPnl := realized
    totalFees := current.totalFees + fill.fee
    updatedAt := fill.filledAt
    closedAt := if new = 0 then some fill.filledAt else none
    state := if new = 0 then .closed else .opened
    decisionIds := current.decisionIds ++ [decision.decisionId]
    strategyKeys := fromkeys (current.strategyKeys ++ [intent.identity.key host])
    approvalIds := fromkeys (current.approvalIds ++ [intent.approvalId])
    goldSnapshotIds := fromkeys (current.goldSnapshotIds ++ intent.goldSnapshotIds)
    agentEvidenceIds := fromkeys (current.agentEvidenceIds ++ agentEvidence intent) }

/-- `PaperExecutionEngine._apply_fill`. -/
def applyFill (host : Host) (current : Option PaperPosition) (decision : RiskDecision) (fill : PaperFill) :
    PaperPosition :=
  match current with
  | none => openPosition host decision fill
  | some position =>
    if position.state = .closed then openPosition host decision fill else netFill host position decision fill

/-! ### The engine -/

/-- `PaperExecutionEngine`: its receipts by idempotency key and its positions. -/
@[ext]
structure PaperExecutionEngine where
  receipts : Dict String ExecutionReceipt
  positions : Dict PositionKey PaperPosition
  deriving DecidableEq

/-- The engine as it is constructed. -/
def PaperExecutionEngine.new : PaperExecutionEngine := ⟨.empty, .empty⟩

section Methods

variable (host : Host) (policy : ExecutionPolicy)

/-- The price an intent is filled at: its reference price, moved against it by the slippage. -/
def fillPrice (intent : TradeIntent) : ℚ :=
  let direction := if intent.action = .buy then 1 else -1
  intent.referencePrice * (1 + direction * policy.slippageBps / 10000)

/-- The order `execute` creates. -/
def newOrder (decision : RiskDecision) (idempotencyKey : String) (executedAt : Instant) : PaperOrder :=
  let intent := decision.intent
  { orderId := stableId host ["paper-order", idempotencyKey, decision.decisionId]
    idempotencyKey
    decisionId := decision.decisionId
    market := intent.market
    accountId := intent.accountId
    symbol := intent.symbol
    action := intent.action
    quantity := intent.quantity
    state := .filled
    submittedAt := executedAt }

/-- The fill `execute` creates. -/
def newFill (decision : RiskDecision) (idempotencyKey : String) (executedAt : Instant) : PaperFill :=
  let intent := decision.intent
  let orderId := (newOrder host decision idempotencyKey executedAt).orderId
  { fillId := stableId host ["paper-fill", orderId, isoformat executedAt]
    orderId
    quantity := intent.quantity
    price := fillPrice policy intent
    fee := intent.quantity * fillPrice policy intent * policy.feeBps / 10000
    filledAt := executedAt }

/-- The receipt of a new fill applied to the position held as `current`. -/
def newReceipt (current : Option PaperPosition) (decision : RiskDecision) (idempotencyKey : String)
    (executedAt : Instant) : ExecutionReceipt :=
  let fill := newFill host policy decision idempotencyKey executedAt
  ⟨newOrder host decision idempotencyKey executedAt, fill, applyFill host current decision fill⟩

/-- `PaperExecutionEngine.execute`. -/
def execute (decision : RiskDecision) (idempotencyKey : String) (executedAt : DateTime) :
    EStateM PyError PaperExecutionEngine ExecutionReceipt := do
  if isBlank idempotencyKey then throw (.valueError "idempotency_key is required")
  let self ← get
  match self.receipts.get? idempotencyKey with
  | some cached =>
    if cached.order.decisionId ≠ decision.decisionId then
      throw (.valueError "idempotency key is already bound to another decision")
    return cached
  | none =>
    if decision.approved = false then
      throw (.permissionError "paper execution requires an approved risk decision")
    let executedAt ← Effect.ofExcept (utc executedAt "executed_at")
    let key := positionKey decision.intent
    let receipt := newReceipt host policy (self.positions.get? key) decision idempotencyKey executedAt
    modify fun self => { self with positions := self.positions.set key receipt.position }
    modify fun self => { self with receipts := self.receipts.set idempotencyKey receipt }
    return receipt

/-- The idempotency key of a batch member. -/
def batchKey (batchId : String) (decision : RiskDecision) : String := batchId ++ ":" ++ decision.decisionId

/-- The members of a batch: each decision with its key. -/
def members (batchId : String) (decisions : List RiskDecision) : List (String × RiskDecision) :=
  decisions.map fun decision => (batchKey batchId decision, decision)

/-- `PaperExecutionEngine.execute_batch`. -/
def executeBatch (decisions : List RiskDecision) (batchId : String) (executedAt : DateTime) :
    EStateM PyError PaperExecutionEngine (List ExecutionReceipt) := do
  if isBlank batchId then throw (.valueError "batch_id is required")
  if decisions.any fun decision => !decision.approved then
    throw (.permissionError "every batch risk decision must be approved")
  if ¬ ((members batchId decisions).map Prod.fst).Nodup then
    throw (.valueError "batch contains duplicate risk decisions")
  let self ← get
  if (members batchId decisions).any fun m =>
      match self.receipts.get? m.1 with
      | some cached => cached.order.decisionId ≠ m.2.decisionId
      | none => false then
    throw (.valueError "batch idempotency key is bound to another decision")
  let receiptsBefore := self.receipts
  let positionsBefore := self.positions
  tryCatch (Effect.each (fun m => execute host policy m.2 m.1 executedAt) (members batchId decisions))
    fun e => do
      modify fun _ => { receipts := receiptsBefore, positions := positionsBefore }
      throw e

/-- `PaperExecutionEngine.position`. -/
def PaperExecutionEngine.position (self : PaperExecutionEngine) (market : Market) (accountId symbol : String) :
    Option PaperPosition :=
  self.positions.get? (market, accountId, symbol)

/-! ### What a call can do -/

/-- The engine after a new fill. -/
def PaperExecutionEngine.record (self : PaperExecutionEngine) (decision : RiskDecision)
    (idempotencyKey : String) (receipt : ExecutionReceipt) : PaperExecutionEngine :=
  ⟨self.receipts.set idempotencyKey receipt, self.positions.set (positionKey decision.intent) receipt.position⟩

/-- **Everything a call of `execute` can do**: raise and change nothing; return the receipt its
key is bound to and change nothing; or record a new fill. -/
theorem execute_cases (decision : RiskDecision) (idempotencyKey : String) (executedAt : DateTime)
    (s : PaperExecutionEngine) :
    (∃ e, execute host policy decision idempotencyKey executedAt s = .error e s) ∨
    (∃ cached, isBlank idempotencyKey = false ∧ s.receipts.get? idempotencyKey = some cached ∧
      cached.order.decisionId = decision.decisionId ∧
      execute host policy decision idempotencyKey executedAt s = .ok cached s) ∨
    (∃ t, executedAt = .aware t ∧ isBlank idempotencyKey = false ∧
      s.receipts.get? idempotencyKey = none ∧ decision.approved = true ∧
      execute host policy decision idempotencyKey executedAt s =
        let receipt :=
          newReceipt host policy (s.positions.get? (positionKey decision.intent)) decision idempotencyKey t
        .ok receipt (s.record decision idempotencyKey receipt)) := by
  unfold execute
  by_cases hb : isBlank idempotencyKey = true
  · exact Or.inl ⟨_, by simp only [hb, if_true]; rfl⟩
  rw [Bool.not_eq_true] at hb
  cases hr : s.receipts.get? idempotencyKey with
  | some cached =>
    by_cases hd : cached.order.decisionId = decision.decisionId
    · refine Or.inr (Or.inl ⟨cached, hb, rfl, hd, ?_⟩)
      simp [hb, Effect.bind_apply, hr, hd]
    · refine Or.inl ⟨.valueError "idempotency key is already bound to another decision", ?_⟩
      simp [hb, Effect.bind_apply, Effect.map_apply, hr, hd]
  | none =>
    by_cases ha : decision.approved = true
    · cases executedAt with
      | naive w =>
        refine Or.inl ⟨.valueError ("executed_at" ++ " must be timezone-aware"), ?_⟩
        simp [hb, Effect.bind_apply, hr, ha, utc]
      | aware t =>
        refine Or.inr (Or.inr ⟨t, rfl, hb, rfl, ha, ?_⟩)
        simp [hb, Effect.bind_apply, Effect.map_apply, hr, ha, utc, PaperExecutionEngine.record]
    · refine Or.inl ⟨.permissionError "paper execution requires an approved risk decision", ?_⟩
      simp [hb, Effect.bind_apply, hr, ha]

/-- What `execute` does with a key that is not cached, for an approved decision. -/
theorem execute_of_new {decision : RiskDecision} {idempotencyKey : String} {s : PaperExecutionEngine}
    (hblank : isBlank idempotencyKey = false) (hnew : s.receipts.get? idempotencyKey = none)
    (happroved : decision.approved = true) (executedAt : DateTime) :
    execute host policy decision idempotencyKey executedAt s =
      match utc executedAt "executed_at" with
      | .error e => .error e s
      | .ok t =>
        let receipt :=
          newReceipt host policy (s.positions.get? (positionKey decision.intent)) decision idempotencyKey t
        .ok receipt (s.record decision idempotencyKey receipt) := by
  cases executedAt with
  | naive w => simp [execute, hblank, Effect.bind_apply, hnew, happroved, utc]
  | aware t =>
    simp [execute, hblank, Effect.bind_apply, Effect.map_apply, hnew, happroved, utc, PaperExecutionEngine.record]

/-- A call of `execute` that raises changes nothing. -/
theorem execute_error {decision : RiskDecision} {idempotencyKey : String} {executedAt : DateTime}
    {s s' : PaperExecutionEngine} {e : PyError}
    (h : execute host policy decision idempotencyKey executedAt s = .error e s') : s' = s := by
  rcases execute_cases host policy decision idempotencyKey executedAt s with
    ⟨e', h'⟩ | ⟨_, _, _, _, h'⟩ | ⟨_, _, _, _, _, h'⟩ <;> rw [h'] at h <;> cases h
  rfl

/-- What a batch that returned was given, and what its loop did. -/
theorem executeBatch_ok {decisions : List RiskDecision} {batchId : String} {executedAt : DateTime}
    {s s' : PaperExecutionEngine} {receipts : List ExecutionReceipt}
    (h : executeBatch host policy decisions batchId executedAt s = .ok receipts s') :
    isBlank batchId = false ∧ (∀ d ∈ decisions, d.approved = true) ∧
      ((members batchId decisions).map Prod.fst).Nodup ∧
      Effect.each (fun m => execute host policy m.2 m.1 executedAt) (members batchId decisions) s =
        .ok receipts s' := by
  unfold executeBatch at h
  by_cases hb : isBlank batchId = true
  · simp [hb, Effect.bind_apply] at h
  rw [Bool.not_eq_true] at hb
  by_cases ha : (decisions.any fun decision => !decision.approved) = true
  · simp only [hb, ha] at h
    cases h
  by_cases hn : ((members batchId decisions).map Prod.fst).Nodup
  swap
  · simp only [hb, ha, hn, not_false_eq_true, if_true] at h
    cases h
  simp only [hb, ha, hn, not_true_eq_false, if_false, Bool.false_eq_true] at h
  rw [Effect.bind_of_ok (Effect.get_apply s)] at h
  split at h
  · cases h
  · refine ⟨hb, ?_, hn, Effect.tryCatch_eq_ok_iff.mp h⟩
    intro d hd
    by_contra hna
    exact ha (List.any_eq_true.mpr ⟨d, hd, by simpa using hna⟩)

end Methods

end NanoDelta.Paper
