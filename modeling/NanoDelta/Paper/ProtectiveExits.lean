import NanoDelta.Paper.Lifecycle

/-!
# Protective exits in memory

Entries, plans and exits over the stores in memory: the paper engine, the lifecycle store, the
outcome recorder and the decision ledger, each with a state of its own, linked by position ids
and by symbols. A run makes entries in symbols without an open position, registers the receipts
that entries returned, with the allocations they came from, and manages the active plans, in any
order and at any times.

* `Sound`: the invariant that joins the four states.
* `exits_close_their_positions`: every exit fill closes the position that its key names, a position
  has at most one exit fill and one outcome, and the active plans are those of open positions, as
  long as entries are filled at positive prices.
* `exit_without_outcome`: an entry filled at zero, whose exit is filled and then raises.
-/

namespace NanoDelta.Paper

open Library Strategies Decisions Risk Outcomes Orchestration

/-! ### The store in memory -/

/-- `MemoryLifecycleStore`. -/
structure MemoryLifecycleStore where
  plans : Dict String ExitPlan
  outcomes : Dict String Outcome
  reasons : Dict String ExitReason

namespace MemoryLifecycleStore

/-- The store as it is constructed. -/
def new : MemoryLifecycleStore := ⟨.empty, .empty, .empty⟩

/-- `MemoryLifecycleStore.save_plan`. -/
def savePlan (plan : ExitPlan) : EStateM PyError MemoryLifecycleStore Unit := fun self =>
  match self.plans.get? plan.positionId with
  | some existing =>
    if existing ≠ plan then .error (.valueError "position exit plan is immutable") self
    else .ok () { self with plans := self.plans.set plan.positionId plan }
  | none => .ok () { self with plans := self.plans.set plan.positionId plan }

/-- `MemoryLifecycleStore.active`. -/
def active (self : MemoryLifecycleStore) (market : Market) (accountId : String) : List ExitPlan :=
  (self.plans.entries.filter fun e =>
    e.2.market = market ∧ e.2.accountId = accountId ∧ self.outcomes.get? e.1 = none).map Prod.snd

/-- `MemoryLifecycleStore.save_outcome`. -/
def saveOutcome (outcome : Outcome) (reason : ExitReason) : EStateM PyError MemoryLifecycleStore Unit := fun self =>
  let saved : MemoryLifecycleStore :=
    { self with
      outcomes := self.outcomes.set outcome.positionId outcome
      reasons := self.reasons.set outcome.positionId reason }
  match self.outcomes.get? outcome.positionId with
  | some existing =>
    if existing ≠ outcome then .error (.valueError "position outcome is immutable") self else .ok () saved
  | none => .ok () saved

end MemoryLifecycleStore

/-! ### Runs -/

/-- The states of the four components, and the entries made so far, each with the allocation that its intent
came from. -/
structure Desk where
  engine : PaperExecutionEngine
  store : MemoryLifecycleStore
  recorder : OutcomeRecorder
  ledger : InMemoryDecisionLedger
  entries : List (PortfolioAllocation × ExecutionReceipt)

/-- A new desk. -/
def Desk.new : Desk := ⟨.new, .new, .empty, .new, []⟩

/-- An entry: an allocation, what the risk engine judges it with, and the key and the time it is executed with. -/
structure Entry where
  allocation : PortfolioAllocation
  cycleId : String
  accountId : String
  approval : StrategyApproval
  portfolio : PortfolioSnapshot
  evaluatedAt : Instant
  idempotencyKey : String
  executedAt : DateTime

/-- The key of the position that an entry trades. -/
def Entry.key (entry : Entry) : PositionKey :=
  (entry.allocation.candidate.candidate.identity.market, entry.accountId, entry.allocation.candidate.candidate.symbol)

/-- What happens at a desk. -/
inductive DeskInput where
  /-- An entry is judged and executed. -/
  | enter (entry : Entry)
  /-- Receipts are registered. -/
  | register (pairs : List (PortfolioAllocation × ExecutionReceipt))
  /-- The plans of a market and an account are managed. -/
  | manage (market : Market) (accountId : String) (marks : Dict String ℚ) (portfolio : PortfolioSnapshot)
      (goldSnapshotIds : Dict String String) (evaluatedAt : DateTime)

section Machine

variable (host : Host) (policy : ExecutionPolicy) (limits : RiskLimits)

/-- The lifecycle over the stores in memory. -/
def memoryLifecycle : PaperPositionLifecycle Desk where
  store :=
    { savePlan := fun plan =>
        Effect.focus Desk.store (fun s t => { s with store := t }) (MemoryLifecycleStore.savePlan plan)
      active := fun market accountId s => .ok (s.store.active market accountId) s
      saveOutcome := fun outcome reason =>
        Effect.focus Desk.store (fun s t => { s with store := t }) (MemoryLifecycleStore.saveOutcome outcome reason) }
  execute decision idempotencyKey executedAt :=
    Effect.focus Desk.engine (fun s t => { s with engine := t })
      (execute host policy decision idempotencyKey executedAt)
  limits := limits
  ledger :=
    { appendCandidate := fun candidate decision =>
        Effect.focus Desk.ledger (fun s t => { s with ledger := t })
          (InMemoryDecisionLedger.appendCandidate candidate decision)
      append := fun decision =>
        Effect.focus Desk.ledger (fun s t => { s with ledger := t }) (InMemoryDecisionLedger.append decision) }
  record position identity allocatedCapital recordedAt :=
    Effect.focus Desk.recorder (fun s t => { s with recorder := t })
      (record host position identity allocatedCapital recordedAt)

/-- The judgment of an entry. -/
def Entry.judged (entry : Entry) : Except PyError RiskDecision := do
  let intent ← intentOf host entry.cycleId entry.accountId entry.approval entry.allocation entry.evaluatedAt
  evaluate host limits intent entry.approval entry.portfolio (.aware entry.evaluatedAt)

/-- The desk after an entry. A receipt that was cached belongs to an earlier entry. -/
def enter (entry : Entry) (s : Desk) : Desk :=
  match entry.judged host limits with
  | .error _ => s
  | .ok decision =>
    match execute host policy decision entry.idempotencyKey entry.executedAt s.engine with
    | .error _ engine => { s with engine }
    | .ok receipt engine =>
      let made := if s.engine.receipts.get? entry.idempotencyKey = none then [(entry.allocation, receipt)] else []
      { s with engine, entries := s.entries ++ made }

/-- The desk, as a machine. What a call raises is lost; what it wrote before stays. -/
def desk : Machine Desk DeskInput Unit where
  step s
    | .enter entry => (enter host policy limits entry s, ())
    | .register pairs => (Effect.final
        ((memoryLifecycle host policy limits).register (pairs.map Prod.fst) (pairs.map Prod.snd) s), ())
    | .manage market accountId marks portfolio goldSnapshotIds evaluatedAt => (Effect.final
        ((memoryLifecycle host policy limits).manage host market accountId marks portfolio goldSnapshotIds
          evaluatedAt s), ())

end Machine

/-- An entry is made in a symbol without an open position, under a key that is not that of an exit; a receipt is
registered after the entry that returned it, with the allocation of that entry. -/
def Orderly (s : Desk) : DeskInput → Prop
  | .enter entry => startsWith entry.idempotencyKey "exit:" = false ∧
      ∀ position ∈ s.engine.positions.get? entry.key, position.state = .closed
  | .register pairs => ∀ pair ∈ pairs, pair ∈ s.entries
  | .manage .. => True

instance (s : Desk) : (input : DeskInput) → Decidable (Orderly s input)
  | .enter _ => inferInstanceAs (Decidable (_ ∧ _))
  | .register pairs => inferInstanceAs (Decidable (∀ pair ∈ pairs, pair ∈ s.entries))
  | .manage .. => isTrue trivial

/-- An entry is filled at a positive price: it buys, or the slippage is below the whole price. -/
def Priced (policy : ExecutionPolicy) : DeskInput → Prop
  | .enter entry => entry.allocation.candidate.candidate.signal.action = .buy ∨ policy.slippageBps < 10000
  | _ => True

instance (policy : ExecutionPolicy) : (input : DeskInput) → Decidable (Priced policy input)
  | .enter _ => inferInstanceAs (Decidable (_ ∨ _))
  | .register _ => isTrue trivial
  | .manage .. => isTrue trivial

/-! ### The receipts of entries and exits -/

section Receipts

variable {host : Host} {policy : ExecutionPolicy}

/-- The receipt of an entry that came from an allocation, filled at a positive price. -/
structure EntryOf (host : Host) (policy : ExecutionPolicy) (allocation : PortfolioAllocation)
    (receipt : ExecutionReceipt) (decision : RiskDecision) (idempotencyKey : String) (t : Instant) : Prop where
  receipt_eq : receipt = newReceipt host policy none decision idempotencyKey t
  decided : ∃ text, decision.decisionId = host.sha256 text
  action : decision.intent.action = allocation.candidate.candidate.signal.action
  identity : decision.intent.identity = allocation.candidate.candidate.identity
  entry_key : startsWith idempotencyKey "exit:" = false
  price_pos : 0 < fillPrice policy decision.intent

/-- An exit closes the position that an entry opened: it is applied to that position, and the outcome is that of
the position it leaves. -/
structure Closes (host : Host) (entry exit : ExecutionReceipt) (outcome : Outcome) : Prop where
  applied : ∃ decision : RiskDecision, decision.intent.action = exit.order.action ∧
    exit.position = applyFill host (some entry.position) decision exit.fill
  same : exit.position.positionId = entry.position.positionId
  opposite : signed exit.order.action exit.fill.quantity = -entry.position.signedQuantity
  flat : exit.position.signedQuantity = 0 ∧ exit.position.state = .closed
  outcome_of : outcome.positionId = entry.position.positionId
  net : outcome.netPnl = exit.position.realizedPnl - exit.position.totalFees

/-- The id of a position tells the key of the entry that opened it. -/
theorem idempotencyKey_of_positionId (hhost : Text.CollisionFree host.sha256) {d d' : RiskDecision}
    {k k' : String} {t t' : Instant} (hd : ∃ text, d.decisionId = host.sha256 text)
    (hd' : ∃ text, d'.decisionId = host.sha256 text)
    (h : (newReceipt host policy none d k t).position.positionId =
      (newReceipt host policy none d' k' t').position.positionId) : k = k' := by
  obtain ⟨text, hd⟩ := hd
  obtain ⟨text', hd'⟩ := hd'
  have hfill : host.sha256 ("paper-fill" ++ "|" ++ (newOrder host d k t).orderId ++ "|" ++ isoformat t) =
      host.sha256 ("paper-fill" ++ "|" ++ (newOrder host d' k' t').orderId ++ "|" ++ isoformat t') := (hhost.last h).2
  have horder : (newOrder host d k t).orderId = (newOrder host d' k' t').orderId := by
    have htexts := hhost.injective hfill
    have hsplit : "paper-fill" ++ "|" ++ ((newOrder host d k t).orderId ++ "|" ++ isoformat t) =
        "paper-fill" ++ "|" ++ ((newOrder host d' k' t').orderId ++ "|" ++ isoformat t') := by
      simpa only [String.append_assoc] using htexts
    exact (Text.bar_append_inj (hhost.plain _) (hhost.plain _) ((String.append_right_inj _).mp hsplit)).1
  have hkeys : host.sha256 ("paper-order" ++ "|" ++ k ++ "|" ++ host.sha256 text) =
      host.sha256 ("paper-order" ++ "|" ++ k' ++ "|" ++ host.sha256 text') := by
    rw [← hd, ← hd']
    exact horder
  exact (String.append_right_inj _).mp (hhost.last hkeys).1

theorem EntryOf.capital_pos {allocation : PortfolioAllocation} {receipt : ExecutionReceipt} {decision : RiskDecision}
    {key : String} {t : Instant} (h : EntryOf host policy allocation receipt decision key t) :
    0 < (planOf allocation receipt).allocatedCapital := by
  obtain ⟨rfl, -, -, -, -, hprice⟩ := h
  have hfee : 0 ≤ decision.intent.quantity * fillPrice policy decision.intent * policy.feeBps / 10000 := by
    have := decision.intent.quantity_pos
    have := policy.nonneg.2
    positivity
  have hnotional : 0 < decision.intent.quantity * fillPrice policy decision.intent :=
    mul_pos decision.intent.quantity_pos hprice
  show 0 < decision.intent.quantity * fillPrice policy decision.intent +
    decision.intent.quantity * fillPrice policy decision.intent * policy.feeBps / 10000
  linarith

/-- An order that closes a position changes it by what it holds. -/
theorem signed_closingAction {action : AdvisoryAction} (h : action ≠ .abstain) (quantity : ℚ) :
    signed (closingAction action) quantity = -signed action quantity := by
  cases action with
  | buy => rfl
  | sell => simp [signed, closingAction]
  | abstain => exact absurd rfl h

end Receipts

/-! ### The invariant -/

/-- What holds at a desk: the four states agree on which positions are open and which were closed. -/
structure Sound (host : Host) (policy : ExecutionPolicy) (s : Desk) : Prop where
  /-- The entries were made by orders of their own. -/
  made : ∀ e ∈ s.entries, (∃ decision t, EntryOf host policy e.1 e.2 decision e.2.order.idempotencyKey t) ∧
    s.engine.receipts.get? e.2.order.idempotencyKey = some e.2
  /-- No two entries opened the same position. -/
  distinct : ∀ e ∈ s.entries, ∀ e' ∈ s.entries, e.2.position.positionId = e'.2.position.positionId → e = e'
  /-- A position without an outcome is held as it was opened, and has no exit. -/
  held : ∀ e ∈ s.entries, s.store.outcomes.get? e.2.position.positionId = none →
    s.engine.positions.get? e.2.position.key = some e.2.position ∧
      ∀ reason, s.engine.receipts.get? (exitKeyOf e.2.position.positionId reason) = none
  /-- A position with an outcome was closed by its one exit. -/
  closed : ∀ e ∈ s.entries, ∀ outcome, s.store.outcomes.get? e.2.position.positionId = some outcome →
    ∃ reason exit, s.engine.receipts.get? (exitKeyOf e.2.position.positionId reason) = some exit ∧
      Closes host e.2 exit outcome ∧
      ∀ reason', reason' ≠ reason → s.engine.receipts.get? (exitKeyOf e.2.position.positionId reason') = none
  /-- An open position is that of an entry without an outcome. -/
  opened : ∀ key position, s.engine.positions.get? key = some position → position.state = .opened →
    (∃ e ∈ s.entries, e.2.position = position) ∧ key = position.key ∧
      s.store.outcomes.get? position.positionId = none
  /-- Exits are of positions that entries opened. -/
  exits : ∀ positionId reason exit, s.engine.receipts.get? (exitKeyOf positionId reason) = some exit →
    ∃ e ∈ s.entries, e.2.position.positionId = positionId
  /-- So are outcomes. -/
  outcomes : ∀ positionId outcome, s.store.outcomes.get? positionId = some outcome →
    ∃ e ∈ s.entries, e.2.position.positionId = positionId
  /-- Plans are those of entries. -/
  plans : ∀ positionId plan, s.store.plans.get? positionId = some plan →
    ∃ e ∈ s.entries, e.2.position.positionId = positionId ∧ plan = planOf e.1 e.2
  /-- The recorder and the store have the same outcomes. -/
  recorder : ∀ positionId, s.recorder.get? positionId = s.store.outcomes.get? positionId

theorem sound_new (host : Host) (policy : ExecutionPolicy) : Sound host policy .new := by
  refine ⟨?_, ?_, ?_, ?_, ?_, ?_, ?_, ?_, fun _ => rfl⟩
  · exact fun e he => absurd he List.not_mem_nil
  · exact fun e he => absurd he List.not_mem_nil
  · exact fun e he => absurd he List.not_mem_nil
  · exact fun e he => absurd he List.not_mem_nil
  · exact fun key position h => nomatch h
  · exact fun positionId reason exit h => nomatch h
  · exact fun positionId outcome h => nomatch h
  · exact fun positionId plan h => nomatch h

section Steps

variable {host : Host} {policy : ExecutionPolicy} {limits : RiskLimits}

/-- The invariant is about all but the decision ledger. -/
theorem Sound.of_ledger {s : Desk} (h : Sound host policy s) (ledger : InMemoryDecisionLedger) :
    Sound host policy { s with ledger } :=
  ⟨h.made, h.distinct, h.held, h.closed, h.opened, h.exits, h.outcomes, h.plans, h.recorder⟩

/-- What the intent of an allocation trades, and for which strategy. -/
theorem intentOf_parts {cycleId accountId : String} {approval : StrategyApproval} {allocation : PortfolioAllocation}
    {t : Instant} {intent : TradeIntent} (h : intentOf host cycleId accountId approval allocation t = .ok intent) :
    positionKey intent = (allocation.candidate.candidate.identity.market, accountId,
        allocation.candidate.candidate.symbol) ∧
      intent.action = allocation.candidate.candidate.signal.action ∧
      intent.identity = allocation.candidate.candidate.identity := by
  unfold intentOf TradeIntent.create at h
  simp only at h
  split_ifs at h
  cases h
  exact ⟨rfl, rfl, rfl⟩

/-- What the judgment of an entry is about. -/
theorem judged_ok {entry : Entry} {decision : RiskDecision} (h : entry.judged host limits = .ok decision) :
    positionKey decision.intent = entry.key ∧
      decision.intent.action = entry.allocation.candidate.candidate.signal.action ∧
      decision.intent.identity = entry.allocation.candidate.candidate.identity ∧
      ∃ text, decision.decisionId = host.sha256 text := by
  unfold Entry.judged at h
  obtain ⟨intent, hintent, h₁⟩ := Effect.except_bind_eq_ok.mp h
  obtain ⟨-, -, hof, -⟩ := evaluate_ok h₁
  obtain ⟨hkey, haction, hidentity⟩ := intentOf_parts hintent
  rw [hof]
  exact ⟨hkey, haction, hidentity, _, decisionId_of_evaluate h₁⟩

/-- The price of an entry is positive. -/
theorem fillPrice_pos_of_priced {entry : Entry} (hpriced : Priced policy (.enter entry)) {intent : TradeIntent}
    (haction : intent.action = entry.allocation.candidate.candidate.signal.action) : 0 < fillPrice policy intent := by
  unfold fillPrice
  refine mul_pos intent.referencePrice_pos ?_
  have hslippage := policy.nonneg.1
  by_cases hbuy : intent.action = .buy
  · simp only [hbuy, if_true]
    linarith
  · have hless : policy.slippageBps < 10000 := hpriced.resolve_left fun h => hbuy (haction.trans h)
    simp only [hbuy, if_false]
    linarith

/-- A new entry opens a position with a new id. -/
theorem Sound.fresh (hhost : Text.CollisionFree host.sha256) {s : Desk} (h : Sound host policy s)
    {allocation : PortfolioAllocation} {receipt : ExecutionReceipt} {decision : RiskDecision} {key : String}
    {t : Instant} (hentry : EntryOf host policy allocation receipt decision key t)
    (hnew : s.engine.receipts.get? key = none) :
    ∀ e ∈ s.entries, e.2.position.positionId ≠ receipt.position.positionId := by
  intro e he hid
  obtain ⟨⟨decision', t', hentry'⟩, hkept⟩ := h.made e he
  obtain ⟨rfl, hdecided, -⟩ := hentry
  rw [hentry'.receipt_eq] at hid
  have hkey := idempotencyKey_of_positionId hhost hentry'.decided hdecided hid
  rw [hkey, hnew] at hkept
  cases hkept

/-- The state after a new entry. -/
theorem Sound.entered (hhost : Text.CollisionFree host.sha256) {s : Desk} (h : Sound host policy s)
    {allocation : PortfolioAllocation} {receipt : ExecutionReceipt} {decision : RiskDecision} {key : String}
    {t : Instant} (hentry : EntryOf host policy allocation receipt decision key t)
    (hnew : s.engine.receipts.get? key = none)
    (hflat : ∀ position ∈ s.engine.positions.get? (positionKey decision.intent), position.state = .closed) :
    Sound host policy
      { s with engine := s.engine.record decision key receipt, entries := s.entries ++ [(allocation, receipt)] } := by
  have hfresh := h.fresh hhost hentry hnew
  have hexit : ∀ positionId reason, exitKeyOf positionId reason ≠ key := by
    intro positionId reason heq
    have := startsWith_exitKeyOf positionId reason
    rw [heq, hentry.entry_key] at this
    cases this
  have hreceipts : ∀ positionId reason, (s.engine.record decision key receipt).receipts.get?
      (exitKeyOf positionId reason) = s.engine.receipts.get? (exitKeyOf positionId reason) :=
    fun positionId reason => Dict.get?_set_of_ne _ (hexit positionId reason) _
  have hnone : s.store.outcomes.get? receipt.position.positionId = none := by
    cases hget : s.store.outcomes.get? receipt.position.positionId with
    | none => rfl
    | some outcome =>
      obtain ⟨e, he, hid⟩ := h.outcomes _ _ hget
      exact absurd hid (hfresh e he)
  have hreceipt : receipt.order.idempotencyKey = key ∧ receipt.position.key = positionKey decision.intent ∧
      receipt.position.state = .opened := by
    rw [hentry.receipt_eq]
    exact ⟨rfl, rfl, rfl⟩
  obtain ⟨horder, hkey, hstate⟩ := hreceipt
  refine ⟨?_, ?_, ?_, ?_, ?_, ?_, ?_, ?_, h.recorder⟩
  · -- made
    intro e he
    rcases List.mem_append.mp he with he | he
    · obtain ⟨hmade, hkept⟩ := h.made e he
      refine ⟨hmade, ?_⟩
      have hne : e.2.order.idempotencyKey ≠ key := by
        rintro rfl
        rw [hnew] at hkept
        cases hkept
      rw [← hkept]
      exact Dict.get?_set_of_ne _ hne _
    · obtain rfl := List.mem_singleton.mp he
      refine ⟨⟨decision, t, horder ▸ hentry⟩, ?_⟩
      show (s.engine.receipts.set key receipt).get? receipt.order.idempotencyKey = some receipt
      rw [horder, Dict.get?_set_self]
  · -- distinct
    intro e he e' he' hid
    rcases List.mem_append.mp he with he | he <;> rcases List.mem_append.mp he' with he' | he'
    · exact h.distinct e he e' he' hid
    · obtain rfl := List.mem_singleton.mp he'
      exact absurd hid (hfresh e he)
    · obtain rfl := List.mem_singleton.mp he
      exact absurd hid.symm (hfresh e' he')
    · obtain rfl := List.mem_singleton.mp he
      obtain rfl := List.mem_singleton.mp he'
      rfl
  · -- held
    intro e he houtcome
    rcases List.mem_append.mp he with he | he
    · obtain ⟨hposition, hexits⟩ := h.held e he houtcome
      refine ⟨?_, fun reason => (hreceipts _ reason).trans (hexits reason)⟩
      have hne : e.2.position.key ≠ positionKey decision.intent := by
        intro heq
        obtain ⟨⟨decision', t', hentry'⟩, -⟩ := h.made e he
        have hopened : e.2.position.state = .opened := by
          rw [hentry'.receipt_eq]
          rfl
        rw [heq] at hposition
        have := hflat _ hposition
        rw [hopened] at this
        cases this
      rw [← hposition]
      exact Dict.get?_set_of_ne _ hne _
    · obtain rfl := List.mem_singleton.mp he
      refine ⟨?_, fun reason => (hreceipts _ reason).trans ?_⟩
      · show (s.engine.positions.set (positionKey decision.intent) receipt.position).get? receipt.position.key = _
        rw [hkey, Dict.get?_set_self]
      · cases hget : s.engine.receipts.get? (exitKeyOf receipt.position.positionId reason) with
        | none => rfl
        | some exit =>
          obtain ⟨e, he', hid⟩ := h.exits _ _ _ hget
          exact absurd hid (hfresh e he')
  · -- closed
    intro e he outcome houtcome
    rcases List.mem_append.mp he with he | he
    · obtain ⟨reason, exit, hget, hcloses, honly⟩ := h.closed e he outcome houtcome
      exact ⟨reason, exit, (hreceipts _ reason).trans hget, hcloses,
        fun reason' hne => (hreceipts _ reason').trans (honly reason' hne)⟩
    · obtain rfl := List.mem_singleton.mp he
      rw [hnone] at houtcome
      cases houtcome
  · -- opened
    intro key' position hget hopen
    have hget' : (s.engine.positions.set (positionKey decision.intent) receipt.position).get? key' = some position :=
      hget
    rw [Dict.get?_set] at hget'
    split_ifs at hget' with hkey'
    · cases hget'
      exact ⟨⟨_, List.mem_append_right _ (List.mem_singleton_self _), rfl⟩, hkey'.trans hkey.symm, hnone⟩
    · obtain ⟨⟨e, he, heq⟩, hrest⟩ := h.opened key' position hget' hopen
      exact ⟨⟨e, List.mem_append_left _ he, heq⟩, hrest⟩
  · -- exits
    intro positionId reason exit hget
    obtain ⟨e, he, hid⟩ := h.exits positionId reason exit ((hreceipts positionId reason).symm.trans hget)
    exact ⟨e, List.mem_append_left _ he, hid⟩
  · -- outcomes
    intro positionId outcome hget
    obtain ⟨e, he, hid⟩ := h.outcomes positionId outcome hget
    exact ⟨e, List.mem_append_left _ he, hid⟩
  · -- plans
    intro positionId plan hget
    obtain ⟨e, he, hid⟩ := h.plans positionId plan hget
    exact ⟨e, List.mem_append_left _ he, hid⟩

/-- Entries keep the invariant. -/
theorem Sound.enter (hhost : Text.CollisionFree host.sha256) {s : Desk} (h : Sound host policy s) {entry : Entry}
    (horderly : Orderly s (.enter entry)) (hpriced : Priced policy (.enter entry)) :
    Sound host policy (enter host policy limits entry s) := by
  unfold Paper.enter
  cases hjudged : entry.judged host limits with
  | error e => exact h
  | ok decision =>
    obtain ⟨hkey, haction, hidentity, hdecided⟩ := judged_ok hjudged
    rcases execute_cases host policy decision entry.idempotencyKey entry.executedAt s.engine with
      ⟨e, hexecute⟩ | ⟨cached, -, hcached, -, hexecute⟩ | ⟨t, -, -, hnew, -, hexecute⟩
    · simp only [hexecute]
      exact h
    · simp only [hexecute, hcached, reduceCtorEq, if_false, List.append_nil]
      exact h
    · simp only [hexecute, hnew, if_true]
      have hflat : ∀ position ∈ s.engine.positions.get? (positionKey decision.intent), position.state = .closed := by
        rw [hkey]
        exact horderly.2
      have hreceipt : newReceipt host policy (s.engine.positions.get? (positionKey decision.intent)) decision
          entry.idempotencyKey t = newReceipt host policy none decision entry.idempotencyKey t := by
        cases hget : s.engine.positions.get? (positionKey decision.intent) with
        | none => rfl
        | some position => simp [newReceipt, applyFill, hflat position hget]
      rw [hreceipt]
      exact h.entered hhost ⟨rfl, hdecided, haction, hidentity, horderly.1, fillPrice_pos_of_priced hpriced haction⟩ hnew hflat

/-- Registering the receipt of an entry files its plan. -/
theorem Sound.savePlan {s : Desk} (h : Sound host policy s) {e : PortfolioAllocation × ExecutionReceipt}
    (he : e ∈ s.entries) :
    MemoryLifecycleStore.savePlan (planOf e.1 e.2) s.store =
        .ok () { s.store with plans := s.store.plans.set e.2.position.positionId (planOf e.1 e.2) } ∧
      Sound host policy
        { s with store := { s.store with plans := s.store.plans.set e.2.position.positionId (planOf e.1 e.2) } } := by
  constructor
  · unfold MemoryLifecycleStore.savePlan
    cases hget : s.store.plans.get? (planOf e.1 e.2).positionId with
    | none => rfl
    | some existing =>
      obtain ⟨e', he', hid, rfl⟩ := h.plans _ _ hget
      obtain rfl := h.distinct e' he' e he hid
      simp only [ne_eq, not_true_eq_false, if_false]
      rfl
  · refine ⟨h.made, h.distinct, h.held, h.closed, h.opened, h.exits, h.outcomes, ?_, h.recorder⟩
    intro positionId plan hget
    have hget' : (s.store.plans.set e.2.position.positionId (planOf e.1 e.2)).get? positionId = some plan := hget
    rw [Dict.get?_set] at hget'
    split_ifs at hget' with hid
    · cases hget'
      exact ⟨e, he, hid.symm, rfl⟩
    · exact h.plans positionId plan hget'

/-- Registering receipts of entries keeps the invariant. -/
theorem Sound.register {s : Desk} (h : Sound host policy s) {pairs : List (PortfolioAllocation × ExecutionReceipt)}
    (hpairs : ∀ pair ∈ pairs, pair ∈ s.entries) :
    Sound host policy (Effect.final
      ((memoryLifecycle host policy limits).register (pairs.map Prod.fst) (pairs.map Prod.snd) s)) := by
  induction pairs generalizing s with
  | nil => exact h
  | cons pair pairs ih =>
    obtain ⟨hsaved, hsound⟩ := h.savePlan (hpairs pair (List.mem_cons_self ..))
    have hstep : (memoryLifecycle host policy limits).store.savePlan (planOf pair.1 pair.2) s =
        .ok () { s with store := { s.store with
          plans := s.store.plans.set pair.2.position.positionId (planOf pair.1 pair.2) } } := by
      show Effect.focus Desk.store (fun s t => { s with store := t }) _ s = _
      exact Effect.focus_of_ok hsaved
    have hrest := ih hsound fun pair' hpair' => hpairs pair' (List.mem_cons_of_mem _ hpair')
    simp only [PaperPositionLifecycle.register, List.map_cons, zipStrict, Effect.bind_of_ok hstep]
    exact hrest

/-! ### Exits -/

theorem isBlank_exitKeyOf (positionId : String) (reason : ExitReason) : isBlank (exitKeyOf positionId reason) = false := by
  have hlist : (exitKeyOf positionId reason).toList = 'e' :: ("xit:" ++ positionId ++ ":" ++ reason.value).toList := by
    simp [exitKeyOf]
  rw [isBlank, hlist, List.all_cons]
  rfl

/-- What an order of the plan of an entry does to the position: it closes it, for the same strategy. -/
theorem EntryOf.exit {e : PortfolioAllocation × ExecutionReceipt} {decision₀ : RiskDecision} {key : String} {t₀ : Instant}
    (h : EntryOf host policy e.1 e.2 decision₀ key t₀) {decision : RiskDecision} (fill : PaperFill)
    (haction : decision.intent.action = closingAction (planOf e.1 e.2).entryAction)
    (hidentity : decision.intent.identity = (planOf e.1 e.2).identity)
    (hquantity : fill.quantity = (planOf e.1 e.2).quantity) :
    let position := applyFill host (some e.2.position) decision fill
    signed decision.intent.action fill.quantity = -e.2.position.signedQuantity ∧
      position.positionId = e.2.position.positionId ∧ position.signedQuantity = 0 ∧ position.state = .closed ∧
      position.closedAt = some fill.filledAt ∧ position.market = (planOf e.1 e.2).identity.market ∧
      position.strategyKeys = [(planOf e.1 e.2).identity.key host] := by
  obtain ⟨allocation, receipt⟩ := e
  obtain ⟨rfl, -, haction₀, hidentity₀, -, -⟩ := h
  have hopposite : signed decision.intent.action fill.quantity = -signed decision₀.intent.action decision₀.intent.quantity := by
    rw [haction, hquantity]
    show signed (closingAction allocation.candidate.candidate.signal.action) decision₀.intent.quantity = _
    rw [← haction₀, signed_closingAction decision₀.intent.action_ne]
  have hflat : signed decision₀.intent.action decision₀.intent.quantity + signed decision.intent.action fill.quantity = 0 := by
    rw [hopposite, add_neg_cancel]
  have hkey : decision.intent.identity.key host = decision₀.intent.identity.key host := by
    rw [hidentity, hidentity₀]
    rfl
  refine ⟨hopposite, rfl, hflat, ?_, ?_, ?_, ?_⟩
  · exact if_pos hflat
  · exact if_pos hflat
  · show decision₀.intent.market = allocation.candidate.candidate.identity.market
    rw [decision₀.intent.market_eq, hidentity₀]
  · show fromkeys ([decision₀.intent.identity.key host] ++ [decision.intent.identity.key host]) = _
    rw [hkey, hidentity₀]
    simp [fromkeys, planOf]

/-- A desk after an exit and its outcome. -/
def Desk.close (s : Desk) (decision : RiskDecision) (reason : ExitReason) (exit : ExecutionReceipt) (outcome : Outcome) :
    Desk :=
  { s with
    engine := s.engine.record decision (exitKeyOf outcome.positionId reason) exit
    recorder := s.recorder.set outcome.positionId outcome
    store := { s.store with
      outcomes := s.store.outcomes.set outcome.positionId outcome
      reasons := s.store.reasons.set outcome.positionId reason } }

/-- The state after an exit and its outcome. -/
theorem Sound.exited {s : Desk} (h : Sound host policy s) {e : PortfolioAllocation × ExecutionReceipt}
    (he : e ∈ s.entries) (hnone : s.store.outcomes.get? e.2.position.positionId = none) {decision : RiskDecision}
    (hkey : positionKey decision.intent = e.2.position.key) (reason : ExitReason) {exit : ExecutionReceipt}
    {outcome : Outcome} (hcloses : Closes host e.2 exit outcome) :
    Sound host policy (s.close decision reason exit outcome) := by
  obtain ⟨hposition, hexits⟩ := h.held e he hnone
  have houtcome : ∀ positionId, (s.close decision reason exit outcome).store.outcomes.get? positionId =
      if positionId = e.2.position.positionId then some outcome else s.store.outcomes.get? positionId := by
    intro positionId
    rw [← hcloses.outcome_of]
    exact Dict.get?_set ..
  have hreceipt : ∀ key, (s.close decision reason exit outcome).engine.receipts.get? key =
      if key = exitKeyOf e.2.position.positionId reason then some exit else s.engine.receipts.get? key := by
    intro key
    rw [← hcloses.outcome_of]
    exact Dict.get?_set ..
  have hpositions : ∀ key, (s.close decision reason exit outcome).engine.positions.get? key =
      if key = e.2.position.key then some exit.position else s.engine.positions.get? key := by
    intro key
    rw [← hkey]
    exact Dict.get?_set ..
  -- an exit of another position has another key
  have hother : ∀ positionId, positionId ≠ e.2.position.positionId → ∀ reason',
      (s.close decision reason exit outcome).engine.receipts.get? (exitKeyOf positionId reason') =
        s.engine.receipts.get? (exitKeyOf positionId reason') := by
    intro positionId hne reason'
    rw [hreceipt, if_neg fun heq => hne (exitKeyOf_injective heq).1]
  refine ⟨?_, h.distinct, ?_, ?_, ?_, ?_, ?_, h.plans, ?_⟩
  · -- made
    intro e' he'
    obtain ⟨⟨decision', t', hentry'⟩, hkept⟩ := h.made e' he'
    refine ⟨⟨decision', t', hentry'⟩, ?_⟩
    have hne : e'.2.order.idempotencyKey ≠ exitKeyOf e.2.position.positionId reason := by
      intro heq
      have := hentry'.entry_key
      rw [heq, startsWith_exitKeyOf] at this
      cases this
    rw [hreceipt, if_neg hne, hkept]
  · -- held
    intro e' he' hnone'
    rw [houtcome] at hnone'
    split_ifs at hnone' with hid
    obtain ⟨hposition', hexits'⟩ := h.held e' he' hnone'
    refine ⟨?_, fun reason' => (hother _ hid reason').trans (hexits' reason')⟩
    have hne : e'.2.position.key ≠ e.2.position.key := by
      intro heq
      rw [heq, hposition] at hposition'
      exact hid (congrArg PaperPosition.positionId (Option.some.inj hposition')).symm
    rw [hpositions, if_neg hne, hposition']
  · -- closed
    intro e' he' outcome' hget
    rw [houtcome] at hget
    split_ifs at hget with hid
    · obtain rfl := h.distinct e' he' e he hid
      cases hget
      refine ⟨reason, exit, by rw [hreceipt, if_pos rfl], hcloses, fun reason' hne => ?_⟩
      rw [hreceipt, if_neg fun heq => hne (exitKeyOf_injective heq).2, hexits]
    · obtain ⟨reason', exit', hget', hcloses', honly⟩ := h.closed e' he' outcome' hget
      exact ⟨reason', exit', (hother _ hid reason').trans hget', hcloses',
        fun reason'' hne => (hother _ hid reason'').trans (honly reason'' hne)⟩
  · -- opened
    intro key position hget hopen
    rw [hpositions] at hget
    split_ifs at hget with hk
    · cases hget
      rw [hcloses.flat.2] at hopen
      cases hopen
    · obtain ⟨⟨e', he', rfl⟩, hkey', hnone'⟩ := h.opened key position hget hopen
      refine ⟨⟨e', he', rfl⟩, hkey', ?_⟩
      have hne : e'.2.position.positionId ≠ e.2.position.positionId := by
        intro hid
        obtain rfl := h.distinct e' he' e he hid
        exact hk hkey'
      rw [houtcome, if_neg hne, hnone']
  · -- exits
    intro positionId reason' exit' hget
    by_cases hid : positionId = e.2.position.positionId
    · exact ⟨e, he, hid.symm⟩
    · exact h.exits positionId reason' exit' ((hother _ hid reason').symm.trans hget)
  · -- outcomes
    intro positionId outcome' hget
    by_cases hid : positionId = e.2.position.positionId
    · exact ⟨e, he, hid.symm⟩
    · rw [houtcome, if_neg hid] at hget
      exact h.outcomes positionId outcome' hget
  · -- recorder
    intro positionId
    rw [houtcome, ← hcloses.outcome_of]
    refine (Dict.get?_set ..).trans ?_
    rw [h.recorder]

/-- Recording a decision changes the decision ledger only. -/
theorem recordExit_ends (plan : ExitPlan) (reason : ExitReason) (t : Instant) (status : DecisionStatus) (code : String)
    (s : Desk) :
    Effect.Ends (recordExit host (memoryLifecycle host policy limits) plan reason t status code) s
      (fun _ s' => ∃ ledger, s' = { s with ledger }) fun _ s' => ∃ ledger, s' = { s with ledger } := by
  refine Effect.Ends.bind (Effect.ends_ofExcept (fun decision _ => ?_) fun _ => ⟨s.ledger, rfl⟩)
  exact Effect.ends_focus Desk.ledger (fun s t => { s with ledger := t }) (InMemoryDecisionLedger.append decision) s

/-- What the order of a plan that is due leads to: the exit is filled, and its outcome is recorded and saved. -/
theorem Sound.exit_runs {s : Desk} (h : Sound host policy s) {e : PortfolioAllocation × ExecutionReceipt}
    (he : e ∈ s.entries) (hnone : s.store.outcomes.get? e.2.position.positionId = none) {decision : RiskDecision}
    (happroved : decision.approved = true) (hkey : positionKey decision.intent = e.2.position.key)
    (haction : decision.intent.action = closingAction (planOf e.1 e.2).entryAction)
    (hquantity : decision.intent.quantity = (planOf e.1 e.2).quantity)
    (hidentity : decision.intent.identity = (planOf e.1 e.2).identity) (reason : ExitReason) (t : Instant) :
    ∃ exit outcome, Closes host e.2 exit outcome ∧
      execute host policy decision (exitKeyOf e.2.position.positionId reason) (.aware t) s.engine =
        .ok exit (s.engine.record decision (exitKeyOf e.2.position.positionId reason) exit) ∧
      record host exit.position (planOf e.1 e.2).identity (planOf e.1 e.2).allocatedCapital (.aware t) s.recorder =
        .ok outcome (s.recorder.set e.2.position.positionId outcome) := by
  obtain ⟨⟨decision₀, t₀, hentry⟩, -⟩ := h.made e he
  obtain ⟨hposition, hexits⟩ := h.held e he hnone
  obtain ⟨hopposite, hid, hflat, hstate, hclosedAt, hmarket, hkeys⟩ :=
    hentry.exit (newFill host policy decision (exitKeyOf e.2.position.positionId reason) t) haction hidentity hquantity
  let exit := newReceipt host policy (some e.2.position) decision (exitKeyOf e.2.position.positionId reason) t
  have houtcome : newOutcome host exit.position (planOf e.1 e.2).identity (planOf e.1 e.2).allocatedCapital (.aware t) =
      .ok (outcomeOf host exit.position (planOf e.1 e.2).identity (planOf e.1 e.2).allocatedCapital t t) := by
    unfold newOutcome
    have hchecks : ¬(exit.position.market ≠ (planOf e.1 e.2).identity.market ∨
        exit.position.strategyKeys ≠ [(planOf e.1 e.2).identity.key host]) := by
      rw [not_or]
      exact ⟨not_not.mpr hmarket, not_not.mpr hkeys⟩
    have hstate' : exit.position.state = .closed := hstate
    have hclosedAt' : exit.position.closedAt = some t := hclosedAt
    simp only [hstate', hclosedAt', hchecks, if_false, utc]
  refine ⟨exit, outcomeOf host exit.position (planOf e.1 e.2).identity (planOf e.1 e.2).allocatedCapital t t,
    ⟨⟨decision, rfl, rfl⟩, hid, hopposite, ⟨hflat, hstate⟩, hid, rfl⟩, ?_, ?_⟩
  · rw [execute_of_new host policy (isBlank_exitKeyOf _ _) (hexits reason) happroved, hkey, hposition]
    rfl
  · unfold record
    have hsame : exit.position.positionId = e.2.position.positionId := hid
    have hrecorder : s.recorder.get? exit.position.positionId = none := by rw [hsame, h.recorder, hnone]
    rw [if_neg (not_le.mpr hentry.capital_pos)]
    simp only [hrecorder, houtcome]
    exact congrArg (fun id => EStateM.Result.ok _ (s.recorder.set id _)) hsame

/-! ### Management -/

/-- The plans that the loop of `manage` has still to look at: they are of entries without an outcome. -/
structure Pending (host : Host) (policy : ExecutionPolicy) (plans : List ExitPlan) (s : Desk) : Prop where
  sound : Sound host policy s
  nodup : (plans.map ExitPlan.positionId).Nodup
  due : ∀ plan ∈ plans, ∃ e ∈ s.entries, plan = planOf e.1 e.2 ∧ s.store.outcomes.get? plan.positionId = none

theorem Pending.tail {plan : ExitPlan} {plans : List ExitPlan} {s : Desk} (h : Pending host policy (plan :: plans) s) :
    Pending host policy plans s :=
  ⟨h.sound, (List.nodup_cons.mp h.nodup).2, fun p hp => h.due p (List.mem_cons_of_mem _ hp)⟩

theorem Pending.of_ledger {plans : List ExitPlan} {s : Desk} (h : Pending host policy plans s)
    (ledger : InMemoryDecisionLedger) : Pending host policy plans { s with ledger } :=
  ⟨h.sound.of_ledger ledger, h.nodup, h.due⟩

/-- The plans that are left after an exit. -/
theorem Pending.close {e : PortfolioAllocation × ExecutionReceipt} {plans : List ExitPlan} {s : Desk}
    (h : Pending host policy (planOf e.1 e.2 :: plans) s) (he : e ∈ s.entries)
    (hnone : s.store.outcomes.get? e.2.position.positionId = none) {decision : RiskDecision}
    (hkey : positionKey decision.intent = e.2.position.key) (reason : ExitReason) {exit : ExecutionReceipt}
    {outcome : Outcome} (hcloses : Closes host e.2 exit outcome) :
    Pending host policy plans (s.close decision reason exit outcome) := by
  have hnodup := List.nodup_cons.mp h.nodup
  refine ⟨h.sound.exited he hnone hkey reason hcloses, hnodup.2, fun plan hplan => ?_⟩
  obtain ⟨e', he', rfl, hnone'⟩ := h.due plan (List.mem_cons_of_mem _ hplan)
  refine ⟨e', he', rfl, ?_⟩
  have hne : (planOf e'.1 e'.2).positionId ≠ outcome.positionId := by
    intro heq
    exact hnodup.1 (List.mem_map.mpr ⟨_, hplan, heq.trans hcloses.outcome_of⟩)
  rw [← hnone']
  exact Dict.get?_set_of_ne _ hne _

/-- A plan whose stop or target is reached: the position is closed, or nothing changes but the ledger. -/
theorem Pending.closePlan {plan : ExitPlan} {plans : List ExitPlan} {s : Desk}
    (h : Pending host policy (plan :: plans) s) (portfolio : PortfolioSnapshot) (golds : Dict String String)
    (t : Instant) (mark : ℚ) (reason : ExitReason) :
    Effect.Ends (closePlan host (memoryLifecycle host policy limits) portfolio golds t plan mark reason) s
      (fun _ s' => Pending host policy plans s') fun _ => Sound host policy := by
  obtain ⟨e, he, rfl, hnone⟩ := h.due plan (List.mem_cons_self ..)
  refine Effect.Ends.bind (Effect.ends_ofExcept (fun intent hintent => ?_) fun _ => h.sound)
  refine Effect.Ends.bind (Effect.ends_ofExcept (fun decision hdecision => ?_) fun _ => h.sound)
  obtain ⟨hkey, haction, hquantity, hidentity⟩ := exitIntent_ok hintent
  obtain ⟨hof, -⟩ := evaluateExit_ok hdecision
  split
  · refine Effect.Ends.bind ((recordExit_ends (planOf e.1 e.2) reason t .rejected "EXIT_RISK_REJECTED" s).mono ?_ ?_)
    · rintro _ s' ⟨ledger, rfl⟩
      exact h.tail.of_ledger ledger
    · rintro _ s' ⟨ledger, rfl⟩
      exact h.sound.of_ledger ledger
  · rename_i happroved
    rw [Bool.not_eq_false] at happroved
    rw [← hof] at hkey haction hquantity hidentity
    obtain ⟨exit, outcome, hcloses, hexecute, hrecord⟩ :=
      h.sound.exit_runs he hnone happroved hkey haction hquantity hidentity reason t
    have hsame := hcloses.outcome_of
    have hsaved : MemoryLifecycleStore.saveOutcome outcome reason s.store =
        .ok () (s.close decision reason exit outcome).store := by
      unfold MemoryLifecycleStore.saveOutcome
      rw [hsame, show s.store.outcomes.get? e.2.position.positionId = none from hnone]
      rw [← hsame]
      rfl
    rw [← hsame] at hexecute hrecord
    let s₁ : Desk := { s with engine := s.engine.record decision (exitKeyOf outcome.positionId reason) exit }
    let s₂ : Desk := { s₁ with recorder := s.recorder.set outcome.positionId outcome }
    have hexecute' : (memoryLifecycle host policy limits).execute decision (exitKey (planOf e.1 e.2) reason) (.aware t) s =
        .ok exit s₁ := by
      show Effect.focus Desk.engine (fun s t => { s with engine := t }) (execute host policy decision
        (exitKeyOf e.2.position.positionId reason) (.aware t)) s = _
      rw [← hsame]
      exact Effect.focus_of_ok hexecute
    have hrecord' : (memoryLifecycle host policy limits).record exit.position (planOf e.1 e.2).identity
        (planOf e.1 e.2).allocatedCapital (.aware t) s₁ = .ok outcome s₂ := by
      show Effect.focus Desk.recorder (fun s t => { s with recorder := t }) _ s₁ = _
      exact Effect.focus_of_ok hrecord
    have hsaved' : (memoryLifecycle host policy limits).store.saveOutcome outcome reason s₂ =
        .ok () (s.close decision reason exit outcome) := by
      show Effect.focus Desk.store (fun s t => { s with store := t }) _ s₂ = _
      exact Effect.focus_of_ok hsaved
    have hpending : Pending host policy plans (s.close decision reason exit outcome) :=
      h.close he hnone hkey reason hcloses
    refine Effect.Ends.bind (Effect.ends_of_eq_ok hexecute' (Effect.Ends.bind (Effect.ends_of_eq_ok hrecord'
      (Effect.Ends.bind (Effect.ends_of_eq_ok hsaved' (Effect.Ends.bind ?_))))))
    refine (recordExit_ends (planOf e.1 e.2) reason t .ordered ("PAPER_" ++ reason.value ++ "_EXIT")
      (s.close decision reason exit outcome)).mono ?_ ?_
    · rintro _ s' ⟨ledger, rfl⟩
      exact hpending.of_ledger ledger
    · rintro _ s' ⟨ledger, rfl⟩
      exact hpending.sound.of_ledger ledger

/-- A plan is filed under its position. -/
theorem Sound.plan_key {s : Desk} (h : Sound host policy s) {entry : String × ExitPlan}
    (hentry : entry ∈ s.store.plans.entries) :
    ∃ e ∈ s.entries, entry.1 = e.2.position.positionId ∧ entry.2 = planOf e.1 e.2 := by
  obtain ⟨e, he, hid, hplan⟩ := h.plans entry.1 entry.2 (Dict.get?_eq_some_iff.mpr hentry)
  exact ⟨e, he, hid.symm, hplan⟩

/-- The active plans are of entries without an outcome. -/
theorem Sound.pending {s : Desk} (h : Sound host policy s) (market : Market) (accountId : String) :
    Pending host policy (s.store.active market accountId) s := by
  refine ⟨h, ?_, ?_⟩
  · have hids : (s.store.active market accountId).map ExitPlan.positionId =
        (s.store.plans.entries.filter fun e => e.2.market = market ∧ e.2.accountId = accountId ∧
          s.store.outcomes.get? e.1 = none).map Prod.fst := by
      unfold MemoryLifecycleStore.active
      rw [List.map_map]
      refine List.map_congr_left fun entry hentry => ?_
      obtain ⟨e, -, hid, hplan⟩ := h.plan_key (List.mem_filter.mp hentry).1
      rw [Function.comp_apply, hplan, hid]
      rfl
    rw [hids]
    exact s.store.plans.nodup.sublist (List.filter_sublist.map _)
  · intro plan hplan
    obtain ⟨entry, hentry, rfl⟩ := List.mem_map.mp hplan
    obtain ⟨hmem, hactive⟩ := List.mem_filter.mp hentry
    obtain ⟨e, he, hid, hof⟩ := h.plan_key hmem
    refine ⟨e, he, hof, ?_⟩
    rw [hof]
    show s.store.outcomes.get? e.2.position.positionId = none
    rw [← hid]
    exact (of_decide_eq_true hactive).2.2

/-- Management keeps the invariant. -/
theorem Sound.manage {s : Desk} (h : Sound host policy s) (market : Market) (accountId : String) (marks : Dict String ℚ)
    (portfolio : PortfolioSnapshot) (golds : Dict String String) (evaluatedAt : DateTime) :
    Sound host policy (Effect.final
      ((memoryLifecycle host policy limits).manage host market accountId marks portfolio golds evaluatedAt s)) := by
  refine Effect.Ends.final (Effect.Ends.bind (Effect.ends_ofExcept (fun t _ => ?_) fun _ => h))
  refine Effect.Ends.bind (Effect.ends_of_eq_ok rfl ?_)
  refine Effect.ends_collect_rest (fun _ hp => hp.sound) ?_ (h.pending market accountId)
  intro plan plans s' hpending
  unfold managePlan
  split
  · exact hpending.tail
  · split
    · exact hpending.tail
    · exact hpending.closePlan portfolio golds t _ _

/-- Every step keeps the invariant. -/
theorem Sound.step (hhost : Text.CollisionFree host.sha256) {s : Desk} (h : Sound host policy s) {input : DeskInput}
    (horderly : Orderly s input) (hpriced : Priced policy input) :
    Sound host policy ((desk host policy limits).step s input).1 := by
  cases input with
  | enter entry => exact h.enter hhost horderly hpriced
  | register pairs => exact h.register horderly
  | manage market accountId marks portfolio golds evaluatedAt =>
    exact h.manage market accountId marks portfolio golds evaluatedAt

end Steps

/-! ### Runs -/

/-- What a desk promises about its exits. -/
structure ExitsClose (host : Host) (s : Desk) : Prop where
  /-- An exit fill closes the position that its key names, which has an outcome with the net result of the position. -/
  exit_closes : ∀ positionId reason exit, s.engine.receipts.get? (exitKeyOf positionId reason) = some exit →
    ∃ e ∈ s.entries, e.2.position.positionId = positionId ∧ ∃ outcome,
      s.store.outcomes.get? positionId = some outcome ∧ s.recorder.get? positionId = some outcome ∧
      Closes host e.2 exit outcome
  /-- A position has at most one exit fill. -/
  exit_once : ∀ positionId reason reason' exit exit', s.engine.receipts.get? (exitKeyOf positionId reason) = some exit →
    s.engine.receipts.get? (exitKeyOf positionId reason') = some exit' → reason = reason' ∧ exit = exit'
  /-- Every outcome is that of an exit fill of its position. -/
  outcome_exit : ∀ positionId outcome, s.store.outcomes.get? positionId = some outcome →
    outcome.positionId = positionId ∧ ∃ reason exit,
      s.engine.receipts.get? (exitKeyOf positionId reason) = some exit ∧
        outcome.netPnl = exit.position.realizedPnl - exit.position.totalFees
  /-- The active plans are the registered plans of positions that are open. -/
  active_iff : ∀ market accountId plan, plan ∈ s.store.active market accountId ↔
    plan ∈ s.store.plans.values ∧ plan.market = market ∧ plan.accountId = accountId ∧
      ∃ position, s.engine.position market accountId plan.symbol = some position ∧
        position.positionId = plan.positionId ∧ position.state = .opened

/-- The invariant gives what a desk promises. -/
theorem Sound.exitsClose {host : Host} {policy : ExecutionPolicy} {s : Desk} (h : Sound host policy s) :
    ExitsClose host s := by
  -- the exit of a position, from any of its receipts
  have hclosed : ∀ positionId reason exit, s.engine.receipts.get? (exitKeyOf positionId reason) = some exit →
      ∃ e ∈ s.entries, e.2.position.positionId = positionId ∧ ∃ outcome,
        s.store.outcomes.get? positionId = some outcome ∧ Closes host e.2 exit outcome ∧
        ∀ reason', reason' ≠ reason → s.engine.receipts.get? (exitKeyOf positionId reason') = none := by
    intro positionId reason exit hget
    obtain ⟨e, he, rfl⟩ := h.exits positionId reason exit hget
    cases houtcome : s.store.outcomes.get? e.2.position.positionId with
    | none =>
      rw [(h.held e he houtcome).2 reason] at hget
      cases hget
    | some outcome =>
      obtain ⟨reason', exit', hget', hcloses, honly⟩ := h.closed e he outcome houtcome
      obtain rfl : reason = reason' := by
        by_contra hne
        rw [honly reason hne] at hget
        cases hget
      rw [hget] at hget'
      cases hget'
      exact ⟨e, he, rfl, outcome, rfl, hcloses, honly⟩
  refine ⟨?_, ?_, ?_, ?_⟩
  · intro positionId reason exit hget
    obtain ⟨e, he, hid, outcome, houtcome, hcloses, -⟩ := hclosed positionId reason exit hget
    exact ⟨e, he, hid, outcome, houtcome, (h.recorder positionId).trans houtcome, hcloses⟩
  · intro positionId reason reason' exit exit' hget hget'
    obtain ⟨e, -, -, outcome, -, -, honly⟩ := hclosed positionId reason exit hget
    obtain rfl : reason' = reason := by
      by_contra hne
      rw [honly reason' hne] at hget'
      cases hget'
    exact ⟨rfl, Option.some.inj (hget.symm.trans hget')⟩
  · intro positionId outcome houtcome
    obtain ⟨e, he, rfl⟩ := h.outcomes positionId outcome houtcome
    obtain ⟨reason, exit, hget, hcloses, -⟩ := h.closed e he outcome houtcome
    exact ⟨hcloses.outcome_of, reason, exit, hget, hcloses.net⟩
  · intro market accountId plan
    constructor
    · intro hplan
      obtain ⟨entry, hentry, rfl⟩ := List.mem_map.mp hplan
      obtain ⟨hmem, hactive⟩ := List.mem_filter.mp hentry
      obtain ⟨hmarket, haccount, hnone⟩ := of_decide_eq_true hactive
      refine ⟨List.mem_map.mpr ⟨entry, hmem, rfl⟩, hmarket, haccount, ?_⟩
      obtain ⟨e, he, hid, hof⟩ := h.plan_key hmem
      rw [hid] at hnone
      obtain ⟨⟨decision, t, hmade⟩, -⟩ := h.made e he
      rw [hof] at hmarket haccount ⊢
      refine ⟨e.2.position, ?_, rfl, ?_⟩
      · rw [← hmarket, ← haccount]
        exact (h.held e he hnone).1
      · rw [hmade.receipt_eq]
        rfl
    · rintro ⟨hvalue, hmarket, haccount, position, hposition, hid, hstate⟩
      obtain ⟨entry, hmem, rfl⟩ := List.mem_map.mp hvalue
      obtain ⟨e, he, hkey, hof⟩ := h.plan_key hmem
      obtain ⟨-, -, hnone⟩ := h.opened _ position hposition hstate
      have hsame : entry.1 = position.positionId := by
        rw [hkey, hid, hof]
        rfl
      refine List.mem_map.mpr ⟨entry, List.mem_filter.mpr ⟨hmem, decide_eq_true ⟨hmarket, haccount, ?_⟩⟩, rfl⟩
      rw [hsame, hnone]

/-- **Exits.** In every run of entries in symbols without an open position, at positive prices, of registrations
of their receipts and of management, every exit fill closes the position that its key names, each position has at
most one exit fill and one outcome, and the active plans are those of the positions that are open. -/
theorem exits_close_their_positions (host : Host) (hhost : Text.CollisionFree host.sha256) (policy : ExecutionPolicy)
    (limits : RiskLimits) (inputs : List DeskInput)
    (hinputs : (desk host policy limits).Along (fun s input => Orderly s input ∧ Priced policy input) .new inputs) :
    ExitsClose host ((desk host policy limits).exec .new inputs) := by
  have hsound : Sound host policy ((desk host policy limits).exec .new inputs) :=
    Machine.exec_invariant_along (fun s input hs hinput => hs.step hhost hinput.1 hinput.2) (sound_new host policy) hinputs
  exact hsound.exitsClose

/-! ### An entry filled at zero -/

namespace ExitSample

open Risk.Sample

/-- A signal to sell at 100, with its stop at 105 and its target at 90. -/
def signal : StrategySignal where
  action := .sell
  confidence := 1 / 2
  referencePrice := 100
  stopPrice := 105
  targetPrice := 90
  confidence_mem := Amounts.half_mem
  referencePrice_pos := Amounts.hundred_pos
  cost_nonneg := Amounts.zero_nonneg
  geometry := by decide +kernel

/-- Its candidate in one symbol. -/
def candidate : DeterministicCandidate :=
  ⟨"candidate-1", identity, "approval-1", "RELIANCE", none, noon, ["gold-1"], signal, {}⟩

/-- Ten units of it. -/
def allocation : PortfolioAllocation := ⟨⟨candidate, ⟨1 / 2, 1, 1, 1, 1, 0, 0, 0, 1⟩⟩, 10, 100, 105, 90⟩

/-- The approval of the sample strategy. -/
def approval : StrategyApproval where
  approvalId := "approval-1"
  identity := identity
  validationRunId := "validation-1"
  state := .approved
  approvedAt := noon - seconds 86400
  expiresAt := noon + seconds 86400
  approvedBy := "reviewer"
  reason := "validated"

theorem noPositions : ∀ p ∈ ([] : List PortfolioPosition), p.accountId = "paper-1" := by simp

/-- The account before the entry. -/
def flat : PortfolioSnapshot := ⟨"snapshot-1", "paper-1", 20000, 0, [], noon, Amounts.equity_pos, noPositions⟩

/-- A minute later. -/
def later : Instant := noon + seconds 60

/-- The account then, at a mark of 106. -/
def short : PortfolioSnapshot :=
  ⟨"snapshot-2", "paper-1", 20000, 0, [⟨.nse, "paper-1", "RELIANCE", -10, 106⟩], later, Amounts.equity_pos, by simp⟩

/-- The entry. -/
def entry : Entry := ⟨allocation, "cycle-1", "paper-1", approval, flat, noon, "cycle-1:decision-1", now⟩

/-- The texts that the run hashes, with their SHA-256 digests. -/
def digests : List (String × String) :=
  let strategy := "ccf01d6774b2a296012e6bd2bfcb848003e45be167bd16ec9d2a3e1ffde41a5a"
  let intent := "93716e22f3cf40895147ecd3b903c2d403978e05d5d23f0739a38beae5436034"
  let decision := "d6d7d535d332244add0d89ae1fa0cdf9294bf7bf3cb52826587504ad54567044"
  let order := "c384acb84a6fbf5b58652435055813fbb98ce29b11899c5104ae524fbbfb7b56"
  let fill := "3ebdba44c20fb4e449a797fa4300875855889968a7143ccb1d6cb4af1b0a0be4"
  let position := "05a5b2cf88390d83aadd7e09ef55c3ecd5d7e5f55a19d1c57f80c78f684cbecf"
  let exit := "94a757114478232147eb83b88bf47e213e69a0d07dd75061aa0546c903f096f4"
  let exitDecision := "b80861cf79d68432739b2632125c6a09da045096fe3c8d10afe66eb345534bbd"
  let exitOrder := "d0f6abab3b670c3407cff91a3cbb68f12e1bcafa6eca02936310b94ed5fa4531"
  let cycle := "d16f9f163f72cdae2b1687dc86e91b36f43c088889f1b5722b8057f51c9edaf6"
  [("nse|vwap_pullback|1.0.0|5m|30m|1", strategy),
   ("trade-intent|cycle-1|candidate-1", intent),
   (intent ++ "|snapshot-1|2026-08-15T12:00:00+00:00|" ++ limits.text Host.cpython, decision),
   ("paper-order|cycle-1:decision-1|" ++ decision, order),
   ("paper-fill|" ++ order ++ "|2026-08-15T12:00:00+00:00", fill),
   ("paper-position|nse|paper-1|RELIANCE|" ++ fill, position),
   ("protective-exit|" ++ position ++ "|STOP", exit),
   ("protective-exit|" ++ exit ++ "|snapshot-2|2026-08-15T12:01:00+00:00", exitDecision),
   ("paper-order|exit:" ++ position ++ ":STOP|" ++ exitDecision, exitOrder),
   ("paper-fill|" ++ exitOrder ++ "|2026-08-15T12:01:00+00:00",
      "221bf16638e6173fc27615ef944185d1100ef268f55e73e0360ec480012ef7bf"),
   ("outcome|" ++ position, "43e02fc9a6bc2acae36b84f220b2c15a57b1ac99f7d0aa061b27f6e5553b5be4"),
   ("exit-cycle|" ++ position ++ "|STOP", cycle),
   (cycle ++ "|nse|RELIANCE|5m|position_management|ordered|PAPER_STOP_EXIT|candidate-1|" ++ strategy,
      "c3d97fd2ba6b8c2b547d887726e15c8b3573b20dda1f22dd8c9b916e19637683")]

theorem limits_text : limits.text Host.cpython =
    "RiskLimits(max_order_notional=10000.0" ++ ", max_position_notional=20000.0" ++
      ", max_market_gross_exposure=50000.0" ++ ", max_total_gross_exposure=80000.0" ++ ", max_daily_loss=2000.0" ++
      ", max_open_positions=5" ++ ", max_snapshot_age_seconds=30)" := by
  decide +kernel

/-- The characters of the text of the limits. -/
def limitsSpelled : Text.Spelled (limits.text Host.cpython) :=
  .congr (by repeat' first | exact Text.Spelled.ofList _ | apply Text.Spelled.append) limits_text

/-- The characters of the table. -/
def spelling : Text.Spelling digests := by
  repeat' first
    | with_reducible exact limitsSpelled
    | exact Text.Spelled.ofList _
    | apply Text.Spelled.append
    | apply Text.Spelling.cons
    | exact Text.Spelling.nil

theorem hexdigest_digests : ∀ e ∈ digests, Sha256.hexdigest e.1 = e.2 := by
  apply Sha256.hexdigest_of_spelling spelling
  -- One text at a time, so that each evaluation is small.
  repeat' first | exact List.forall_mem_nil _ | refine List.forall_mem_cons.mpr ⟨?_, ?_⟩
  all_goals decide +kernel

/-- The runtime on the run. -/
def host : Host := Host.recorded digests

theorem host_eq : host = Host.spelled spelling.chars := Host.spelled_eq spelling

/-- The entry, and what it returned. -/
def entered (policy : ExecutionPolicy) : Desk := (desk host policy limits).exec .new [.enter entry]

/-- The entry is made and registered, and a minute later its stop is passed. -/
def run (policy : ExecutionPolicy) : List DeskInput :=
  [.enter entry, .register (entered policy).entries,
   .manage .nse "paper-1" (Dict.empty.set "RELIANCE" 106) short .empty (.aware later)]

/-- The desk after it. -/
def after (policy : ExecutionPolicy) : Desk := (desk host policy limits).exec .new (run policy)

/-- Without slippage. -/
def free : ExecutionPolicy := ⟨0, 0, Amounts.zeros_nonneg⟩

/-- With a slippage of the whole price. -/
def whole : ExecutionPolicy := ⟨10000, 0, by decide⟩

end ExitSample

/-- An exit at its stop: one exit fill, one outcome and no active plan. -/
theorem stopped_out :
    ExitsClose ExitSample.host (ExitSample.after ExitSample.free) ∧
      (ExitSample.after ExitSample.free).store.outcomes.values.map Outcome.netPnl = [-60] ∧
      (ExitSample.after ExitSample.free).store.active .nse "paper-1" = [] := by
  have hhost : Text.CollisionFree ExitSample.host.sha256 :=
    Host.recorded_collisionFree (ExitSample.spelling.nodup (by decide +kernel)) ExitSample.hexdigest_digests
  -- All of it in one evaluation, which makes the run once.
  have hrun : (desk ExitSample.host ExitSample.free Risk.Sample.limits).Along
        (fun s input => Orderly s input ∧ Priced ExitSample.free input) .new (ExitSample.run ExitSample.free) ∧
      (ExitSample.after ExitSample.free).store.outcomes.values.map Outcome.netPnl = [-60] ∧
      (ExitSample.after ExitSample.free).store.active .nse "paper-1" = [] := by
    simp only [ExitSample.after, ExitSample.run, ExitSample.entered, ExitSample.host_eq]
    decide +kernel
  obtain ⟨hinputs, houtcome, hactive⟩ := hrun
  exact ⟨exits_close_their_positions ExitSample.host hhost ExitSample.free Risk.Sample.limits
    (ExitSample.run ExitSample.free) hinputs, houtcome, hactive⟩

/-- A sale with a slippage of the whole price is filled at zero, so that the capital of its plan is zero. Its exit
is filled and then no outcome is recorded: the position is closed and its plan is still active. -/
theorem exit_without_outcome :
    (desk ExitSample.host ExitSample.whole Risk.Sample.limits).Along Orderly .new (ExitSample.run ExitSample.whole) ∧
      (let s := ExitSample.after ExitSample.whole
       s.engine.receipts.values.length = 2 ∧ s.store.outcomes.values = [] ∧
       ∃ plan ∈ s.store.active .nse "paper-1", ∃ position ∈ s.engine.position .nse "paper-1" plan.symbol,
         position.positionId = plan.positionId ∧ position.state = .closed) := by
  simp only [ExitSample.after, ExitSample.run, ExitSample.entered, ExitSample.host_eq]
  decide +kernel

end NanoDelta.Paper
