import NanoDelta.Library.Table
import NanoDelta.Paper.Execution

/-!
# The paper tables

The tables of the schema `paper` that durable paper execution reads and writes
(`migrations/0003`, `0009`, `0010` and `0013`), and the statements of
`paper/postgres.py` on them. A row type has its columns in the order in which the
`INSERT` of that table lists them, and the writers give the values by position,
as the source does. A `SELECT` gives a list of cells, in the order of its column
list, and the decoders read the cells by position.

Enumerations are stored as texts. Numeric, `TIMESTAMPTZ` and `JSONB` columns give
back what was stored, so a `JSONB` column of texts is the list of those texts. A
statement that breaks a constraint raises. Columns with defaults that nothing
here reads (`created_at`, `execution_mode`) are left out.

* `loadReceipt_files`: if the three tables of the receipts hold the images of one
  list of receipts, loading a key finds the receipt of that list with the key.
-/

namespace NanoDelta.Paper

open Library Risk

/-! ### Rows -/

/-- A row of `paper.decisions`. -/
structure DecisionRow where
  decisionId : String
  intentId : String
  market : String
  accountId : String
  symbol : String
  action : String
  quantity : ℚ
  referencePrice : ℚ
  candidateId : String
  approvalId : String
  portfolioSnapshotId : String
  state : String
  rejectionReasons : List String
  limits : RiskLimits
  goldSnapshotIds : List String
  agentEvidenceId : Option String
  evaluatedAt : Instant
  deriving DecidableEq

/-- A row of `paper.orders`. -/
structure OrderRow where
  orderId : String
  idempotencyKey : String
  decisionId : String
  market : String
  accountId : String
  symbol : String
  action : String
  quantity : ℚ
  state : String
  submittedAt : Instant
  deriving DecidableEq

/-- A row of `paper.fills`. -/
structure FillRow where
  fillId : String
  orderId : String
  quantity : ℚ
  price : ℚ
  fee : ℚ
  filledAt : Instant
  deriving DecidableEq

/-- A row of `paper.positions`. -/
structure PositionRow where
  positionId : String
  market : String
  accountId : String
  symbol : String
  signedQuantity : ℚ
  averageEntryPrice : ℚ
  realizedPnl : ℚ
  totalFees : ℚ
  openedAt : Instant
  updatedAt : Instant
  closedAt : Option Instant
  state : String
  decisionIds : List String
  strategyKeys : List String
  approvalIds : List String
  goldSnapshotIds : List String
  agentEvidenceIds : List String
  deriving DecidableEq

/-- A row of `paper.order_positions`. -/
structure OrderPositionRow where
  orderId : String
  positionId : String
  signedQuantity : ℚ
  averageEntryPrice : ℚ
  realizedPnl : ℚ
  totalFees : ℚ
  openedAt : Instant
  updatedAt : Instant
  closedAt : Option Instant
  state : String
  decisionIds : List String
  strategyKeys : List String
  approvalIds : List String
  goldSnapshotIds : List String
  agentEvidenceIds : List String
  deriving DecidableEq

/-- A row of `paper.realization_events`. -/
structure RealizationRow where
  eventId : String
  fillId : String
  positionId : String
  market : String
  accountId : String
  symbol : String
  grossPnlDelta : ℚ
  fee : ℚ
  netPnl : ℚ
  realizedAt : Instant
  deriving DecidableEq

/-- A row of `paper.outcomes`. -/
structure OutcomeRow where
  outcomeId : String
  positionId : String
  market : String
  accountId : String
  symbol : String
  strategyKey : String
  openedAt : Instant
  closedAt : Instant
  grossPnl : ℚ
  totalFees : ℚ
  netPnl : ℚ
  returnOnAllocatedCapital : ℚ
  decisionIds : List String
  approvalIds : List String
  goldSnapshotIds : List String
  agentEvidenceIds : List String
  recordedAt : Instant
  deriving DecidableEq

/-- A row of `paper.exit_plans`. -/
@[ext] structure ExitPlanRow where
  positionId : String
  market : String
  accountId : String
  symbol : String
  entryAction : String
  quantity : ℚ
  stopPrice : ℚ
  targetPrice : ℚ
  allocatedCapital : ℚ
  candidateId : String
  approvalId : String
  strategyKey : String
  goldSnapshotIds : List String
  createdAt : Instant
  state : String := "ACTIVE"
  exitReason : Option String := none
  closedAt : Option Instant := none
  /-- The table's check. -/
  capital_pos : 0 < allocatedCapital

instance : DecidableEq ExitPlanRow := fun _ _ => decidable_of_iff _ ExitPlanRow.ext_iff.symm

/-- A row of `research.strategy_definitions`, without the columns that nothing here reads. -/
structure StrategyRow where
  strategyKey : String
  strategyId : String
  strategyVersion : String
  timeframe : String
  tradeHorizon : String
  featureSetVersion : ℕ
  deriving DecidableEq

/-- The tables. Of the approvals and the evidence in the schema `research`, which rows refer to, only
the keys. -/
structure Database where
  /-- `research.strategy_approvals(approval_id)`. -/
  strategyApprovals : List String := []
  /-- `research.agent_evidence(evidence_id)`. -/
  agentEvidence : List String := []
  decisions : List DecisionRow := []
  orders : List OrderRow := []
  fills : List FillRow := []
  positions : List PositionRow := []
  orderPositions : List OrderPositionRow := []
  realizationEvents : List RealizationRow := []
  outcomes : List OutcomeRow := []
  exitPlans : List ExitPlanRow := []
  /-- `research.strategy_definitions`. -/
  strategyDefinitions : List StrategyRow := []
  deriving DecidableEq

/-! ### Writes -/

/-- What the driver raises for a row that breaks a constraint. -/
def integrityError : PyError := .databaseError "constraint violated"

/-- The market check of every table. -/
def isMarket (text : String) : Prop := text = "nse" ∨ text = "forex" ∨ text = "crypto"

instance (text : String) : Decidable (isMarket text) := by unfold isMarket; infer_instance

/-- The row of a risk decision. -/
def decisionRow (decision : RiskDecision) : DecisionRow :=
  let intent := decision.intent
  ⟨decision.decisionId, intent.intentId, intent.market.value, intent.accountId, intent.symbol,
    intent.action.value, intent.quantity, intent.referencePrice, intent.candidateId, intent.approvalId,
    decision.portfolioSnapshotId, decision.state.value, decision.rejectionReasons, decision.limits,
    intent.goldSnapshotIds, intent.agentEvidenceId, decision.evaluatedAt⟩

/-- `_save_decision`. -/
def saveDecision (decision : RiskDecision) (db : Database) : Except PyError Database := do
  let row := decisionRow decision
  let decisions ← Table.insertOrSkip
    (isMarket row.market ∧ (row.action = "BUY" ∨ row.action = "SELL") ∧ 0 < row.quantity ∧
      0 < row.referencePrice ∧ (row.state = "APPROVED" ∨ row.state = "REJECTED"))
    (fun r => r.decisionId = row.decisionId)
    (row.approvalId ∈ db.strategyApprovals ∧ ∀ evidence ∈ row.agentEvidenceId, evidence ∈ db.agentEvidence)
    integrityError row db.decisions
  return { db with decisions }

/-- The row of an order. -/
def orderRow (idempotencyKey : String) (order : PaperOrder) : OrderRow :=
  ⟨order.orderId, idempotencyKey, order.decisionId, order.market.value, order.accountId, order.symbol,
    order.action.value, order.quantity, order.state.value, order.submittedAt⟩

/-- `_save_order`. -/
def saveOrder (idempotencyKey : String) (order : PaperOrder) (db : Database) : Except PyError Database := do
  let row := orderRow idempotencyKey order
  let orders ← Table.insertOrSkip
    (isMarket row.market ∧ (row.action = "BUY" ∨ row.action = "SELL") ∧ 0 < row.quantity ∧ row.state = "FILLED")
    (fun r => r.idempotencyKey = row.idempotencyKey)
    ((∀ r ∈ db.orders, r.orderId ≠ row.orderId) ∧ ∃ r ∈ db.decisions, r.decisionId = row.decisionId)
    integrityError row db.orders
  return { db with orders }

/-- The row of a fill. -/
def fillRow (fill : PaperFill) : FillRow :=
  ⟨fill.fillId, fill.orderId, fill.quantity, fill.price, fill.fee, fill.filledAt⟩

/-- `_save_fill`. -/
def saveFill (fill : PaperFill) (db : Database) : Except PyError Database := do
  let row := fillRow fill
  let fills ← Table.insertOrSkip
    (0 < row.quantity ∧ 0 < row.price ∧ 0 ≤ row.fee)
    (fun r => r.orderId = row.orderId)
    ((∀ r ∈ db.fills, r.fillId ≠ row.fillId) ∧ ∃ r ∈ db.orders, r.orderId = row.orderId)
    integrityError row db.fills
  return { db with fills }

/-- The row of a position. -/
def positionRow (position : PaperPosition) : PositionRow :=
  ⟨position.positionId, position.market.value, position.accountId, position.symbol, position.signedQuantity,
    position.averageEntryPrice, position.realizedPnl, position.totalFees, position.openedAt,
    position.updatedAt, position.closedAt, position.state.value, position.decisionIds, position.strategyKeys,
    position.approvalIds, position.goldSnapshotIds, position.agentEvidenceIds⟩

/-- `DO UPDATE SET` of `_save_position`: the columns it sets, from the excluded row. -/
def PositionRow.update (r excluded : PositionRow) : PositionRow :=
  { r with
    signedQuantity := excluded.signedQuantity
    averageEntryPrice := excluded.averageEntryPrice
    realizedPnl := excluded.realizedPnl
    totalFees := excluded.totalFees
    updatedAt := excluded.updatedAt
    closedAt := excluded.closedAt
    state := excluded.state
    decisionIds := excluded.decisionIds
    strategyKeys := excluded.strategyKeys
    approvalIds := excluded.approvalIds
    goldSnapshotIds := excluded.goldSnapshotIds
    agentEvidenceIds := excluded.agentEvidenceIds }

/-- The rows that `paper_open_position_idx` keeps apart. -/
def PositionRow.clash (r r' : PositionRow) : Prop :=
  r.state = "OPEN" ∧ r'.state = "OPEN" ∧ r.market = r'.market ∧ r.accountId = r'.accountId ∧ r.symbol = r'.symbol

instance : DecidableRel PositionRow.clash := fun r r' => by unfold PositionRow.clash; infer_instance

/-- `_save_position`. -/
def savePosition (position : PaperPosition) (db : Database) : Except PyError Database := do
  let row := positionRow position
  let positions ← Table.upsert
    (isMarket row.market ∧ 0 ≤ row.averageEntryPrice ∧ 0 ≤ row.totalFees ∧
      (row.state = "OPEN" ∨ row.state = "CLOSED"))
    (fun r => r.positionId = row.positionId) PositionRow.clash
    integrityError (fun r => r.update row) row db.positions
  return { db with positions }

/-- The row of a position as it stood after an order. -/
def orderPositionRow (orderId : String) (position : PaperPosition) : OrderPositionRow :=
  ⟨orderId, position.positionId, position.signedQuantity, position.averageEntryPrice, position.realizedPnl,
    position.totalFees, position.openedAt, position.updatedAt, position.closedAt, position.state.value,
    position.decisionIds, position.strategyKeys, position.approvalIds, position.goldSnapshotIds,
    position.agentEvidenceIds⟩

/-- `_save_order_position_snapshot`. -/
def saveOrderPositionSnapshot (orderId : String) (position : PaperPosition) (db : Database) :
    Except PyError Database := do
  let row := orderPositionRow orderId position
  let orderPositions ← Table.insertOrSkip
    (0 ≤ row.averageEntryPrice ∧ 0 ≤ row.totalFees ∧ (row.state = "OPEN" ∨ row.state = "CLOSED"))
    (fun r => r.orderId = row.orderId)
    (∃ r ∈ db.orders, r.orderId = row.orderId)
    integrityError row db.orderPositions
  return { db with orderPositions }

/-- The event of a fill. -/
def realizationRow (host : Host) (fill : PaperFill) (position : PaperPosition) (priorRealizedPnl : ℚ) :
    RealizationRow :=
  let grossDelta := position.realizedPnl - priorRealizedPnl
  ⟨stableId host ["paper-realization", fill.fillId], fill.fillId, position.positionId, position.market.value,
    position.accountId, position.symbol, grossDelta, fill.fee, grossDelta - fill.fee, fill.filledAt⟩

@[simp] theorem realizationRow_positionId (host : Host) (fill : PaperFill) (position : PaperPosition) (prior : ℚ) :
    (realizationRow host fill position prior).positionId = position.positionId := rfl

/-- `_save_realization`. -/
def saveRealization (host : Host) (fill : PaperFill) (position : PaperPosition) (priorRealizedPnl : ℚ)
    (db : Database) : Except PyError Database := do
  let row := realizationRow host fill position priorRealizedPnl
  let realizationEvents ← Table.insertOrSkip
    (isMarket row.market ∧ 0 ≤ row.fee)
    (fun r => r.fillId = row.fillId)
    ((∀ r ∈ db.realizationEvents, r.eventId ≠ row.eventId) ∧ (∃ r ∈ db.fills, r.fillId = row.fillId) ∧
      ∃ r ∈ db.positions, r.positionId = row.positionId)
    integrityError row db.realizationEvents
  return { db with realizationEvents }

/-- The row that the `SELECT` of `_save_closed_outcome` gives for a position and its exit plan. -/
def outcomeRow (outcomeId : String) (p : PositionRow) (x : ExitPlanRow) (closedAt : Instant) : OutcomeRow :=
  ⟨outcomeId, p.positionId, p.market, p.accountId, p.symbol, x.strategyKey, p.openedAt, closedAt,
    p.realizedPnl, p.totalFees, p.realizedPnl - p.totalFees,
    (p.realizedPnl - p.totalFees) / x.allocatedCapital, p.decisionIds, p.approvalIds, p.goldSnapshotIds,
    p.agentEvidenceIds, closedAt⟩

/-- `_save_closed_outcome`. -/
def saveClosedOutcome (host : Host) (position : PaperPosition) (db : Database) : Except PyError Database := do
  let selected :=
    (db.positions.filter fun p => p.positionId = position.positionId ∧ p.state = "CLOSED").flatMap fun p =>
      (db.exitPlans.filter fun x => x.positionId = p.positionId).map fun x => (p, x)
  let outcomes ← selected.foldlM (fun outcomes (p, x) =>
    match p.closedAt with
    | none => .error integrityError
    | some closedAt =>
      let row := outcomeRow (stableId host ["outcome", position.positionId]) p x closedAt
      Table.insertOrSkip (isMarket row.market ∧ 0 ≤ row.totalFees)
        (fun r => r.positionId = row.positionId)
        (∀ r ∈ outcomes, r.outcomeId ≠ row.outcomeId)
        integrityError row outcomes) db.outcomes
  return { db with outcomes }

/-- The update of `paper.exit_plans` for a position that a managed exit closed. -/
def closeExitPlan (reason : String) (position : PaperPosition) (db : Database) : Except PyError Database :=
  .ok { db with
    exitPlans := db.exitPlans.map fun x =>
      if x.positionId = position.positionId then
        { x with state := "CLOSED", exitReason := some reason, closedAt := position.closedAt }
      else x }

/-! ### Reads -/

/-- A cell of a row that a `SELECT` returns. -/
inductive Cell where
  /-- A text. -/
  | text (value : String)
  /-- A number. -/
  | number (value : ℚ)
  /-- A time. -/
  | timestamp (value : Instant)
  /-- A JSON list of texts. -/
  | json (value : List String)
  /-- `NULL`. -/
  | null

/-- A nullable time. -/
def Cell.ofTime? : Option Instant → Cell
  | none => .null
  | some t => .timestamp t

/-- `row[i]`. -/
def cellAt (row : List Cell) (i : ℕ) : Except PyError Cell :=
  match row[i]? with
  | some cell => .ok cell
  | none => .error (.indexError "tuple index out of range")

/-- `str(row[i])`, of a text column. -/
def strAt (row : List Cell) (i : ℕ) : Except PyError String := do
  match ← cellAt row i with
  | .text value => return value
  | _ => throw (.valueError "not a text column")

/-- `float(row[i])`. -/
def floatAt (row : List Cell) (i : ℕ) : Except PyError ℚ := do
  match ← cellAt row i with
  | .number value => return value
  | _ => throw (.valueError "could not convert to float")

/-- `cast(datetime, row[i])`, of a time column. -/
def timeAt (row : List Cell) (i : ℕ) : Except PyError Instant := do
  match ← cellAt row i with
  | .timestamp value => return value
  | _ => throw (.valueError "not a time column")

/-- `cast(datetime | None, row[i])`, of a nullable time column. -/
def time?At (row : List Cell) (i : ℕ) : Except PyError (Option Instant) := do
  match ← cellAt row i with
  | .timestamp value => return some value
  | .null => return none
  | _ => throw (.valueError "not a time column")

/-- `tuple(cast(list[str], _load_json(row[i])))`. -/
def jsonAt (row : List Cell) (i : ℕ) : Except PyError (List String) := do
  match ← cellAt row i with
  | .json value => return value
  | _ => throw (.valueError "not a JSON column")

/-- `OrderState(text)`. -/
def OrderState.ofValue (text : String) : Except PyError OrderState :=
  if text = "FILLED" then .ok .filled else .error (.valueError "not a valid OrderState")

/-- `PositionState(text)`. -/
def PositionState.ofValue (text : String) : Except PyError PositionState :=
  if text = "OPEN" then .ok .opened
  else if text = "CLOSED" then .ok .closed
  else .error (.valueError "not a valid PositionState")

/-- `_position_from_row`. -/
def positionFromRow (row : List Cell) : Except PyError PaperPosition := do
  return ⟨← strAt row 0, ← Market.ofValue (← strAt row 1), ← strAt row 2, ← strAt row 3, ← floatAt row 4,
    ← floatAt row 5, ← floatAt row 6, ← floatAt row 7, ← timeAt row 8, ← timeAt row 9, ← time?At row 10,
    ← PositionState.ofValue (← strAt row 11), ← jsonAt row 12, ← jsonAt row 13, ← jsonAt row 14,
    ← jsonAt row 15, ← jsonAt row 16⟩

/-- The columns that `_load_open_position` selects. -/
def PositionRow.select (p : PositionRow) : List Cell :=
  [.text p.positionId, .text p.market, .text p.accountId, .text p.symbol, .number p.signedQuantity,
    .number p.averageEntryPrice, .number p.realizedPnl, .number p.totalFees, .timestamp p.openedAt,
    .timestamp p.updatedAt, .ofTime? p.closedAt, .text p.state, .json p.decisionIds, .json p.strategyKeys,
    .json p.approvalIds, .json p.goldSnapshotIds, .json p.agentEvidenceIds]

/-- The row is the open one of a key. -/
def PositionRow.isOpen (key : PositionKey) (p : PositionRow) : Bool :=
  p.market = key.1.value && p.accountId = key.2.1 && p.symbol = key.2.2 && p.state = "OPEN"

/-- `_load_open_position`. -/
def loadOpenPosition (key : PositionKey) (db : Database) : Except PyError (Option PaperPosition) :=
  match db.positions.find? (PositionRow.isOpen key) with
  | none => .ok none
  | some row => do return some (← positionFromRow row.select)

/-- The columns that `_load_receipt` selects. -/
def selectReceipt (o : OrderRow) (f : FillRow) (s : OrderPositionRow) : List Cell :=
  [.text o.orderId, .text o.idempotencyKey, .text o.decisionId, .text o.market, .text o.accountId,
    .text o.symbol, .text o.action, .number o.quantity, .text o.state, .timestamp o.submittedAt,
    .text f.fillId, .number f.quantity, .number f.price, .number f.fee, .timestamp f.filledAt,
    .text s.positionId, .text o.market, .text o.accountId, .text o.symbol, .number s.signedQuantity,
    .number s.averageEntryPrice, .number s.realizedPnl, .number s.totalFees, .timestamp s.openedAt,
    .timestamp s.updatedAt, .ofTime? s.closedAt, .text s.state, .json s.decisionIds, .json s.strategyKeys,
    .json s.approvalIds, .json s.goldSnapshotIds, .json s.agentEvidenceIds]

/-- The rows that `_load_receipt` selects: orders joined with their fills and snapshots. -/
def joinReceipts (idempotencyKey : String) (db : Database) : List (List Cell) :=
  (db.orders.filter fun o => o.idempotencyKey = idempotencyKey).flatMap fun o =>
    (db.fills.filter fun f => f.orderId = o.orderId).flatMap fun f =>
      (db.orderPositions.filter fun s => s.orderId = o.orderId).map fun s => selectReceipt o f s

/-- The decoder of `_load_receipt`. -/
def receiptFromRow (row : List Cell) : Except PyError ExecutionReceipt := do
  let order : PaperOrder :=
    ⟨← strAt row 0, ← strAt row 1, ← strAt row 2, ← Market.ofValue (← strAt row 3), ← strAt row 4,
      ← strAt row 5, ← AdvisoryAction.ofValue (← strAt row 6), ← floatAt row 7,
      ← OrderState.ofValue (← strAt row 8), ← timeAt row 9⟩
  let fill : PaperFill :=
    ⟨← strAt row 10, order.orderId, ← floatAt row 11, ← floatAt row 12, ← floatAt row 13, ← timeAt row 14⟩
  let position ← positionFromRow (row.drop 15)
  return ⟨order, fill, position⟩

/-- `_load_receipt`. -/
def loadReceipt (idempotencyKey : String) (db : Database) : Except PyError (Option ExecutionReceipt) :=
  match (joinReceipts idempotencyKey db).head? with
  | none => .ok none
  | some row => do return some (← receiptFromRow row)

/-! ### What is written is read back -/

@[simp] theorem PositionState.ofValue_value (state : PositionState) :
    PositionState.ofValue state.value = .ok state := by
  cases state <;> rfl

/-- The row of a position reads back as the position. -/
theorem positionFromRow_select (position : PaperPosition) :
    positionFromRow (positionRow position).select = .ok position := by
  obtain ⟨_, market, _, _, _, _, _, _, _, _, closedAt, state, _, _, _, _, _⟩ := position
  cases market <;> cases closedAt <;> cases state <;> rfl

/-- The open position of a key, among positions. -/
def openIn (positions : List PaperPosition) (key : PositionKey) : Option PaperPosition :=
  positions.find? fun p => p.key = key ∧ p.state = .opened

/-- The row of a position is the open one of a key exactly if the position is. -/
theorem isOpen_positionRow (key : PositionKey) (position : PaperPosition) :
    (positionRow position).isOpen key = decide (position.key = key ∧ position.state = .opened) := by
  obtain ⟨market, accountId, symbol⟩ := key
  obtain ⟨_, pmarket, paccount, psymbol, _, _, _, _, _, _, _, state, _, _, _, _, _⟩ := position
  have hmarket : pmarket.value = market.value ↔ pmarket = market := Market.value_injective.eq_iff
  rw [Bool.eq_iff_iff]
  simp only [PositionRow.isOpen, Bool.and_eq_true, decide_eq_true_iff]
  simp only [positionRow, PaperPosition.key, Prod.mk.injEq, hmarket]
  cases state
  · simp only [PositionState.value]
    tauto
  · simp [PositionState.value]

/-- Loading the open position of a key, from a table that holds the rows of some positions. -/
theorem loadOpenPosition_rows {db : Database} {positions : List PaperPosition}
    (h : db.positions = positions.map positionRow) (key : PositionKey) :
    loadOpenPosition key db = .ok (openIn positions key) := by
  unfold loadOpenPosition openIn
  have hfind : db.positions.find? (PositionRow.isOpen key) =
      (positions.find? fun p => p.key = key ∧ p.state = .opened).map positionRow := by
    rw [h, List.find?_map]
    congr 2
    funext p
    exact isOpen_positionRow key p
  rw [hfind]
  cases positions.find? fun p => p.key = key ∧ p.state = .opened with
  | none => rfl
  | some p =>
    simp only [Option.map_some, positionFromRow_select]
    rfl

/-- The rows of a receipt read back as the receipt: the fill is of the order, and the position is
in the market, account and symbol of the order. -/
theorem receiptFromRow_select {r : ExecutionReceipt} (hfill : r.fill.orderId = r.order.orderId)
    (hkey : r.position.key = r.order.key) :
    receiptFromRow (selectReceipt (orderRow r.order.idempotencyKey r.order) (fillRow r.fill)
      (orderPositionRow r.order.orderId r.position)) = .ok r := by
  obtain ⟨⟨orderId, _, _, market, accountId, symbol, action, _, orderState, _⟩, ⟨_, fillOrder, _, _, _, _⟩,
    ⟨_, market', accountId', symbol', _, _, _, _, _, _, closedAt, state, _, _, _, _, _⟩⟩ := r
  obtain rfl : fillOrder = orderId := hfill
  simp only [PaperPosition.key, PaperOrder.key, Prod.mk.injEq] at hkey
  obtain ⟨rfl, rfl, rfl⟩ := hkey
  cases market' <;> cases action <;> cases orderState <;> cases closedAt <;> cases state <;> rfl

/-- A position that is loaded is open and of the key it was asked for. -/
theorem loadOpenPosition_key {key : PositionKey} {db : Database} {position : PaperPosition}
    (h : loadOpenPosition key db = .ok (some position)) : position.key = key ∧ position.state = .opened := by
  unfold loadOpenPosition at h
  cases hrow : db.positions.find? (PositionRow.isOpen key) with
  | none => rw [hrow] at h; cases h
  | some row =>
    have hopen := List.find?_some hrow
    obtain ⟨market, accountId, symbol⟩ := key
    obtain ⟨_, rmarket, raccount, rsymbol, _, _, _, _, _, _, closedAt, rstate, _, _, _, _, _⟩ := row
    simp only [PositionRow.isOpen, Bool.and_eq_true, decide_eq_true_eq] at hopen
    obtain ⟨⟨⟨rfl, rfl⟩, rfl⟩, rfl⟩ := hopen
    rw [hrow] at h
    cases market <;> cases closedAt <;> cases h <;> exact ⟨rfl, rfl⟩

/-- The three tables of the receipts hold the images of one list of receipts: one order, one fill
and one snapshot for each. -/
structure Files (db : Database) (ledger : List ExecutionReceipt) : Prop where
  /-- The orders. -/
  orders : db.orders = ledger.map fun r => orderRow r.order.idempotencyKey r.order
  /-- The fills. -/
  fills : db.fills = ledger.map fun r => fillRow r.fill
  /-- The snapshots. -/
  orderPositions : db.orderPositions = ledger.map fun r => orderPositionRow r.order.orderId r.position
  /-- No idempotency key occurs twice. -/
  keys : (ledger.map fun r => r.order.idempotencyKey).Nodup
  /-- No order id occurs twice. -/
  orderIds : (ledger.map fun r => r.order.orderId).Nodup
  /-- Each fill is of its order. -/
  filled : ∀ r ∈ ledger, r.fill.orderId = r.order.orderId
  /-- Each position is of the key of its order. -/
  keyed : ∀ r ∈ ledger, r.position.key = r.order.key

/-- The receipt of a key. -/
def receiptOf (ledger : List ExecutionReceipt) (idempotencyKey : String) : Option ExecutionReceipt :=
  ledger.find? fun r => r.order.idempotencyKey = idempotencyKey

/-- The rows selected for a key, as the images of the receipts with that key. -/
theorem joinReceipts_files {db : Database} {ledger : List ExecutionReceipt} (h : Files db ledger)
    (idempotencyKey : String) :
    joinReceipts idempotencyKey db =
      (ledger.filter fun r => r.order.idempotencyKey = idempotencyKey).map fun r =>
        selectReceipt (orderRow r.order.idempotencyKey r.order) (fillRow r.fill)
          (orderPositionRow r.order.orderId r.position) := by
  have hfills : ∀ r ∈ ledger, db.fills.filter (fun f => f.orderId = r.order.orderId) = [fillRow r.fill] := by
    intro r hr
    have hids : (ledger.map fun r => r.fill.orderId).Nodup := by
      rw [List.map_congr_left fun r hr => h.filled r hr]
      exact h.orderIds
    rw [h.fills, List.filter_map, ← h.filled r hr]
    exact congrArg (List.map _) (Table.filter_eq_singleton hids hr)
  have hsnapshots : ∀ r ∈ ledger, db.orderPositions.filter (fun s => s.orderId = r.order.orderId) =
      [orderPositionRow r.order.orderId r.position] := by
    intro r hr
    rw [h.orderPositions, List.filter_map]
    exact congrArg (List.map _) (Table.filter_eq_singleton h.orderIds hr)
  unfold joinReceipts
  rw [h.orders, List.filter_map, List.flatMap_map]
  rw [List.map_eq_flatMap]
  refine List.flatMap_congr ?_
  intro r hr
  have hr' : r ∈ ledger := (List.mem_filter.mp hr).1
  show ((db.fills.filter fun f => f.orderId = r.order.orderId).flatMap fun f =>
    (db.orderPositions.filter fun s => s.orderId = r.order.orderId).map fun s =>
      selectReceipt (orderRow r.order.idempotencyKey r.order) f s) = _
  rw [hfills r hr', hsnapshots r hr']
  rfl

/-- **Loading a key finds its receipt.** -/
theorem loadReceipt_files {db : Database} {ledger : List ExecutionReceipt} (h : Files db ledger)
    (idempotencyKey : String) : loadReceipt idempotencyKey db = .ok (receiptOf ledger idempotencyKey) := by
  unfold loadReceipt receiptOf
  rw [joinReceipts_files h, List.head?_map, List.head?_filter]
  cases hfind : ledger.find? fun r => r.order.idempotencyKey = idempotencyKey with
  | none => rfl
  | some r =>
    have hr : r ∈ ledger := List.mem_of_find?_eq_some hfind
    simp only [Option.map_some]
    rw [receiptFromRow_select (h.filled r hr) (h.keyed r hr)]
    rfl

end NanoDelta.Paper
