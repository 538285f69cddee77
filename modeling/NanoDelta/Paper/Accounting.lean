import NanoDelta.Paper.Execution

/-!
# Runs of the paper ledger

What holds of the in-memory paper ledger after any sequence of `execute` and
`execute_batch` calls, those that raise included.

* `position_accounts_for_its_fills`: the position stored for a key accounts for
  the fills since it was opened. Its quantity and fees are their sums, its
  realised profit is what they received less what they paid with the holding at
  its average price, and it is closed exactly when nothing is held.
* `ledger_is_the_fold_of_its_receipts`: the stored positions are the left fold of
  `_apply_fill` over the receipts, a call that raises leaves no trace, and
  submitting a used key again returns its receipt and changes nothing.

Both come from one rule, `run_invariant`: the only thing a call can do to the
engine is to record new fills, one after the other.
-/

namespace NanoDelta.Paper

open Library Risk

/-! ### Calls and runs -/

/-- A call of the engine. -/
inductive Call where
  /-- `execute(decision, idempotency_key=…, executed_at=…)`. -/
  | execute (decision : RiskDecision) (idempotencyKey : String) (executedAt : DateTime)
  /-- `execute_batch(decisions, batch_id=…, executed_at=…)`. -/
  | executeBatch (decisions : List RiskDecision) (batchId : String) (executedAt : DateTime)

/-- The decisions a call submits. -/
def Call.decisions : Call → List RiskDecision
  | .execute decision _ _ => [decision]
  | .executeBatch decisions _ _ => decisions

variable (host : Host) (policy : ExecutionPolicy)

/-- A call, as a program. -/
def Call.run : Call → EStateM PyError PaperExecutionEngine (List ExecutionReceipt)
  | .execute decision key executedAt => (fun r => [r]) <$> Paper.execute host policy decision key executedAt
  | .executeBatch decisions batchId executedAt => Paper.executeBatch host policy decisions batchId executedAt

/-- What a call returned or raised. -/
def outcome {σ α : Type} : EStateM.Result PyError σ α → Except PyError α
  | .ok a _ => .ok a
  | .error e _ => .error e

theorem outcome_eq_ok {σ α : Type} {x : EStateM.Result PyError σ α} {a : α} :
    outcome x = .ok a ↔ ∃ s, x = .ok a s := by
  cases x with
  | ok b s => simp [outcome]
  | error e s => simp [outcome]

/-- The engine as a machine: a call, the next state, and what the call returned or raised. -/
def engine : Machine PaperExecutionEngine Call (Except PyError (List ExecutionReceipt)) :=
  ⟨fun s call => (Effect.final (call.run host policy s), outcome (call.run host policy s))⟩

/-- The engine after a run, from its construction. -/
def after (calls : List Call) : PaperExecutionEngine := (engine host policy).exec .new calls

variable {host policy}

/-- A call that raises leaves the engine as it was. -/
theorem Call.run_error {call : Call} {s s' : PaperExecutionEngine} {e : PyError}
    (h : call.run host policy s = .error e s') : s' = s := by
  cases call with
  | execute decision key executedAt =>
    simp only [Call.run, Effect.map_apply] at h
    cases hx : Paper.execute host policy decision key executedAt s with
    | ok r s₁ => rw [hx] at h; cases h
    | error e₁ s₁ =>
      rw [hx] at h
      cases h
      exact execute_error host policy hx
  | executeBatch decisions batchId executedAt =>
    simp only [Call.run, Paper.executeBatch] at h
    split at h
    · cases h; rfl
    · split at h
      · cases h; rfl
      · split at h
        · cases h; rfl
        · rw [Effect.bind_of_ok (Effect.get_apply s)] at h
          split at h
          · cases h; rfl
          · exact Effect.final_of_restoring (fun _ => rfl) h

/-- What recording a new fill keeps, a call of `execute` that returns keeps. -/
theorem execute_invariant {P : PaperExecutionEngine → Prop} {decision : RiskDecision}
    (hrecord : ∀ s key t, P s → s.receipts.get? key = none → decision.approved = true →
      P (s.record decision key
        (newReceipt host policy (s.positions.get? (positionKey decision.intent)) decision key t)))
    {key : String} {executedAt : DateTime} {s s' : PaperExecutionEngine} {receipt : ExecutionReceipt} (hs : P s)
    (h : execute host policy decision key executedAt s = .ok receipt s') : P s' := by
  rcases execute_cases host policy decision key executedAt s with
    ⟨e, h'⟩ | ⟨_, _, _, _, h'⟩ | ⟨t, _, _, hr, ha, h'⟩ <;> rw [h'] at h <;> cases h
  · exact hs
  · exact hrecord s key t hs hr ha

/-- **The rule for calls**: what recording new fills of its decisions keeps, a call keeps. -/
theorem call_invariant {P : PaperExecutionEngine → Prop} {call : Call}
    (hrecord : ∀ decision ∈ call.decisions, ∀ s key t, P s → s.receipts.get? key = none →
      decision.approved = true →
      P (s.record decision key
        (newReceipt host policy (s.positions.get? (positionKey decision.intent)) decision key t)))
    {s : PaperExecutionEngine} (hs : P s) : P (((engine host policy).step s call).1) := by
  show P (Effect.final (call.run host policy s))
  cases hrun : call.run host policy s with
  | error e s' => rw [Effect.final_error, Call.run_error hrun]; exact hs
  | ok rs s' =>
    rw [Effect.final_ok]
    cases call with
    | execute decision key executedAt =>
      simp only [Call.run, Effect.map_apply] at hrun
      cases hx : Paper.execute host policy decision key executedAt s with
      | error e₁ s₁ => rw [hx] at hrun; cases hrun
      | ok r s₁ =>
        rw [hx] at hrun
        cases hrun
        exact execute_invariant (hrecord decision (by simp [Call.decisions])) hs hx
    | executeBatch decisions batchId executedAt =>
      obtain ⟨-, -, -, hloop⟩ := executeBatch_ok host policy hrun
      refine Effect.each_invariant ?_ hs hloop
      intro m hm s₁ r s₂ hs₁ hx
      obtain ⟨decision, hd, rfl⟩ := List.mem_map.mp hm
      exact execute_invariant (hrecord decision hd) hs₁ hx

/-- **The rule for runs**: what recording new fills keeps holds after every run. -/
theorem run_invariant {P : PaperExecutionEngine → Prop} (hnew : P .new) {calls : List Call}
    (hrecord : ∀ call ∈ calls, ∀ decision ∈ call.decisions, ∀ s key t, P s → s.receipts.get? key = none →
      decision.approved = true →
      P (s.record decision key
        (newReceipt host policy (s.positions.get? (positionKey decision.intent)) decision key t))) :
    P (after host policy calls) := by
  refine Machine.exec_invariant_along (C := fun _ call => call ∈ calls) ?_ hnew
    (Machine.along_of_forall (fun _ h => h) _)
  exact fun s call hs hcall => call_invariant (hrecord call hcall) hs

/-! ### The receipts of a key -/

/-- The receipts of a key, in the order they were recorded. -/
def receiptsOf (s : PaperExecutionEngine) (key : PositionKey) : List ExecutionReceipt :=
  s.receipts.values.filter fun r => r.order.key = key

theorem receiptsOf_record {s : PaperExecutionEngine} {decision : RiskDecision} {idempotencyKey : String}
    (h : s.receipts.get? idempotencyKey = none) (receipt : ExecutionReceipt) (key : PositionKey) :
    receiptsOf (s.record decision idempotencyKey receipt) key =
      receiptsOf s key ++ if receipt.order.key = key then [receipt] else [] := by
  simp only [receiptsOf, PaperExecutionEngine.record, Dict.values_set_of_get?_eq_none h, List.filter_append]
  by_cases hk : receipt.order.key = key <;> simp [hk]

/-- The signed quantity of a fill. -/
def ExecutionReceipt.delta (r : ExecutionReceipt) : ℚ := signed r.order.action r.fill.quantity

/-- `before` and `since` split the fills of a key where the position `pos` was opened: what came
before ended closed, the first fill since gave the position its id, the position has been open
ever since, and it is the position of the last fill. -/
structure OpenedBy (host : Host) (before since : List ExecutionReceipt) (pos : PaperPosition) : Prop where
  /-- The position before was closed. -/
  closed_before : ∀ r, before.getLast? = some r → r.position.state = .closed
  /-- The first fill opened the position. -/
  opening : ∃ r, since.head? = some r ∧
    pos.positionId = stableId host
      ["paper-position", r.order.market.value, r.order.accountId, r.order.symbol, r.fill.fillId]
  /-- Every fill since is a fill of this position. -/
  same_id : ∀ r ∈ since, r.position.positionId = pos.positionId
  /-- It was open after every fill but the last. -/
  open_until : ∀ r ∈ since.dropLast, r.position.state = .opened
  /-- It is as the last fill left it. -/
  latest : ∃ r, since.getLast? = some r ∧ r.position = pos

/-- A position accounts for the fills since it was opened. -/
structure Accounts (pos : PaperPosition) (since : List ExecutionReceipt) : Prop where
  /-- The quantity is the sum of the signed fills. -/
  quantity : pos.signedQuantity = (since.map ExecutionReceipt.delta).sum
  /-- The fees are the sum of the fees. -/
  fees : pos.totalFees = (since.map fun r => r.fill.fee).sum
  /-- The realised profit is the cash received less the cash paid, with the holding at its average
  price. -/
  realized : pos.realizedPnl =
    -(since.map fun r => r.delta * r.fill.price).sum + pos.signedQuantity * pos.averageEntryPrice
  /-- It is closed exactly when nothing is held. -/
  closed_iff : pos.state = .closed ↔ pos.signedQuantity = 0
  /-- It has a closing time exactly when nothing is held. -/
  closedAt_iff : pos.signedQuantity = 0 ↔ pos.closedAt.isSome = true
  /-- A closed position has average price zero. -/
  average_closed : pos.state = .closed → pos.averageEntryPrice = 0
  /-- An open position has a positive average price. -/
  average_open : pos.state = .opened → 0 < pos.averageEntryPrice
  /-- The decisions are those of the fills, in order. -/
  decisions : pos.decisionIds = since.map fun r => r.order.decisionId

/-- What the engine keeps for a key: nothing before the first fill, and then a position that
accounts for the fills since it was opened. -/
def Kept (host : Host) (fills : List ExecutionReceipt) : Option PaperPosition → Prop
  | none => fills = []
  | some pos => ∃ before since, fills = before ++ since ∧ OpenedBy host before since pos ∧ Accounts pos since

/-! ### One fill -/

/-- The book of a position. -/
def PaperPosition.book (pos : PaperPosition) : Book ℚ :=
  ⟨pos.signedQuantity, pos.averageEntryPrice, pos.realizedPnl⟩

/-- Netting a fill is a fill of the position's book. -/
theorem netFill_book (host : Host) (pos : PaperPosition) (decision : RiskDecision) (fill : PaperFill) :
    (netFill host pos decision fill).book =
      pos.book.fill (signed decision.intent.action fill.quantity) fill.price := by
  unfold PaperPosition.book netFill Book.fill
  by_cases h : 0 < pos.signedQuantity * signed decision.intent.action fill.quantity
  · simp only [h, if_true]
  · simp only [h, if_false]
    rfl

/-- With less than full slippage, fills have positive prices. -/
theorem fillPrice_pos {policy : ExecutionPolicy} (hslip : policy.slippageBps < 10000) (intent : TradeIntent) :
    0 < fillPrice policy intent := by
  have hnonneg := policy.nonneg.1
  have href := intent.referencePrice_pos
  unfold fillPrice
  refine mul_pos href ?_
  by_cases hb : intent.action = .buy
  · simp only [hb, if_true]
    linarith
  · simp only [hb, if_false]
    linarith

section Fill

variable {decision : RiskDecision} {key : String} {t : Instant}

/-- The delta of a new receipt is the intent's. -/
theorem delta_newReceipt (current : Option PaperPosition) :
    (newReceipt host policy current decision key t).delta = decision.intent.delta := rfl

theorem key_newReceipt (current : Option PaperPosition) :
    (newReceipt host policy current decision key t).order.key = positionKey decision.intent := rfl

/-- A fill that opens a position: the fills before it, if any, ended closed. -/
theorem kept_opening (hslip : policy.slippageBps < 10000) {fills : List ExecutionReceipt}
    {current : Option PaperPosition} (hclosed : ∀ pos ∈ current, pos.state = .closed)
    (hlast : ∀ r, fills.getLast? = some r → r.position.state = .closed) :
    Kept host (fills ++ [newReceipt host policy current decision key t])
      (some (newReceipt host policy current decision key t).position) := by
  have hpos : (newReceipt host policy current decision key t).position =
      openPosition host decision (newFill host policy decision key t) := by
    cases current with
    | none => rfl
    | some pos => simp [newReceipt, applyFill, hclosed pos rfl]
  refine ⟨fills, [newReceipt host policy current decision key t], rfl, ⟨hlast, ⟨_, rfl, ?_⟩, ?_, ?_, ?_⟩, ?_⟩
  · rw [hpos]; rfl
  · intro r hr
    rw [List.mem_singleton.mp hr]
  · intro r hr
    simp at hr
  · exact ⟨_, rfl, rfl⟩
  · rw [hpos]
    have hquantity : (openPosition host decision (newFill host policy decision key t)).signedQuantity =
        decision.intent.delta := rfl
    have hne : ¬ (openPosition host decision (newFill host policy decision key t)).signedQuantity = 0 :=
      decision.intent.delta_ne_zero
    have hcash := Book.opening_cash decision.intent.delta (fillPrice policy decision.intent)
    refine ⟨?_, ?_, ?_, ?_, ?_, ?_, ?_, ?_⟩
    · rw [hquantity, List.map_singleton, List.sum_singleton, delta_newReceipt]
    · rw [List.map_singleton, List.sum_singleton]
      rfl
    · rw [List.map_singleton, List.sum_singleton, delta_newReceipt, hquantity]
      simp only [Book.opening] at hcash
      show (0 : ℚ) = -(decision.intent.delta * fillPrice policy decision.intent) +
        decision.intent.delta * fillPrice policy decision.intent
      linarith
    · simp only [hne, iff_false]
      intro h; cases h
    · simp only [hne, false_iff]
      intro h; cases h
    · intro h; cases h
    · intro _; exact fillPrice_pos hslip decision.intent
    · rfl

/-- A fill of an open position. -/
theorem kept_netting (hslip : policy.slippageBps < 10000) {fills : List ExecutionReceipt} {pos : PaperPosition}
    (hopen : pos.state = .opened) (hkept : Kept host fills (some pos)) :
    Kept host (fills ++ [newReceipt host policy (some pos) decision key t])
      (some (newReceipt host policy (some pos) decision key t).position) := by
  obtain ⟨before, since, rfl, hopened, hacc⟩ := hkept
  set r := newReceipt host policy (some pos) decision key t with hr
  have hpos : r.position = netFill host pos decision (newFill host policy decision key t) := by
    simp [hr, newReceipt, applyFill, hopen]
  have hquantity : r.position.signedQuantity = pos.signedQuantity + decision.intent.delta := by rw [hpos]; rfl
  have hq : pos.signedQuantity ≠ 0 := by
    intro h
    rw [hacc.closed_iff.mpr h] at hopen
    cases hopen
  have hbook : r.position.book = pos.book.fill decision.intent.delta (fillPrice policy decision.intent) := by
    rw [hpos]
    exact netFill_book host pos decision _
  have hcash := Book.fill_cash (b := pos.book) (p := fillPrice policy decision.intent) hq
    decision.intent.delta_ne_zero
  rw [← hbook] at hcash
  have hstate : r.position.state = if r.position.signedQuantity = 0 then .closed else .opened := by
    rw [hquantity, hpos]; rfl
  refine ⟨before, since ++ [r], List.append_assoc .., ⟨hopened.closed_before, ?_, ?_, ?_, ?_⟩, ?_⟩
  · obtain ⟨r₀, hhead, hid⟩ := hopened.opening
    refine ⟨r₀, ?_, ?_⟩
    · rw [List.head?_append, hhead]; rfl
    · rw [hpos]; exact hid
  · intro r' hr'
    rcases List.mem_append.mp hr' with h | h
    · rw [hopened.same_id r' h, hpos]; rfl
    · rw [List.mem_singleton.mp h]
  · -- every fill so far left the position open: the last one left it as `pos`
    rw [List.dropLast_concat]
    intro r' hr'
    obtain ⟨r₁, hlast, hr₁⟩ := hopened.latest
    rw [← List.dropLast_append_getLast? r₁ hlast] at hr'
    rcases List.mem_append.mp hr' with h | h
    · exact hopened.open_until r' h
    · rw [List.mem_singleton.mp h, hr₁, hopen]
  · exact ⟨r, by rw [List.getLast?_concat], rfl⟩
  · refine ⟨?_, ?_, ?_, ?_, ?_, ?_, ?_, ?_⟩
    · rw [hquantity, hacc.quantity]
      simp [hr, delta_newReceipt]
    · have hfees : r.position.totalFees = pos.totalFees + r.fill.fee := by rw [hpos]; rfl
      rw [hfees, hacc.fees]
      simp
    · have hprice : r.delta * r.fill.price = decision.intent.delta * fillPrice policy decision.intent := rfl
      have hreal := hacc.realized
      simp only [PaperPosition.book] at hcash
      rw [List.map_append, List.sum_append, List.map_singleton, List.sum_singleton, hprice]
      linarith
    · rw [hstate]
      by_cases h : r.position.signedQuantity = 0 <;> simp [h]
    · have hclosed : r.position.closedAt =
          if r.position.signedQuantity = 0 then some (newFill host policy decision key t).filledAt else none := by
        rw [hquantity, hpos]; rfl
      rw [hclosed]
      by_cases h : r.position.signedQuantity = 0 <;> simp [h]
    · intro h
      have h0 : pos.signedQuantity + decision.intent.delta = 0 := by
        by_contra hne
        rw [hstate, hquantity, if_neg hne] at h
        cases h
      exact (congrArg Book.average hbook).trans (Book.fill_average_of_closed h0)
    · intro h
      have hne : pos.signedQuantity + decision.intent.delta ≠ 0 := by
        intro h0
        rw [hstate, hquantity, if_pos h0] at h
        cases h
      exact lt_of_lt_of_eq (Book.fill_average_pos (hacc.average_open hopen)
        (fillPrice_pos hslip decision.intent) hne) (congrArg Book.average hbook).symm
    · have hids : r.position.decisionIds = pos.decisionIds ++ [decision.decisionId] := by rw [hpos]; rfl
      rw [hids, hacc.decisions, List.map_append]
      rfl

end Fill

/-- **Positions account for their fills.** After any run of calls, the position stored for a key
accounts for the fills of that key since it was opened: adds, partial closes, exact closes,
reversals through zero and re-openings included. -/
theorem position_accounts_for_its_fills (host : Host) (policy : ExecutionPolicy)
    (hslip : policy.slippageBps < 10000) (calls : List Call) (key : PositionKey) (pos : PaperPosition)
    (hpos : (after host policy calls).positions.get? key = some pos) :
    ∃ before since, receiptsOf (after host policy calls) key = before ++ since ∧
      OpenedBy host before since pos ∧ Accounts pos since := by
  have hinv : ∀ key, Kept host (receiptsOf (after host policy calls) key)
      ((after host policy calls).positions.get? key) := by
    refine run_invariant (P := fun s => ∀ key, Kept host (receiptsOf s key) (s.positions.get? key))
      (fun _ => rfl) ?_
    intro call _ decision _ s idempotencyKey t hs hfresh _ key
    rw [receiptsOf_record hfresh, key_newReceipt]
    by_cases hkey : positionKey decision.intent = key
    · subst hkey
      rw [if_pos rfl]
      have hget : (s.record decision idempotencyKey (newReceipt host policy
          (s.positions.get? (positionKey decision.intent)) decision idempotencyKey t)).positions.get?
            (positionKey decision.intent) =
          some (newReceipt host policy (s.positions.get? (positionKey decision.intent)) decision
            idempotencyKey t).position := Dict.get?_set_self ..
      rw [hget]
      have hk := hs (positionKey decision.intent)
      cases hcur : s.positions.get? (positionKey decision.intent) with
      | none =>
        rw [hcur] at hk
        rw [show receiptsOf s (positionKey decision.intent) = [] from hk]
        exact kept_opening hslip (by simp) (by simp)
      | some cur =>
        rw [hcur] at hk
        cases hstate : cur.state with
        | opened => exact kept_netting hslip hstate hk
        | closed =>
          refine kept_opening hslip (by simpa using hstate) ?_
          obtain ⟨before, since, hfills, hopened, -⟩ := hk
          intro r hr
          obtain ⟨r₁, hlast, hr₁⟩ := hopened.latest
          rw [hfills, List.getLast?_append, hlast] at hr
          cases hr
          rw [hr₁, hstate]
    · rw [if_neg hkey, List.append_nil]
      have hget : (s.record decision idempotencyKey (newReceipt host policy
          (s.positions.get? (positionKey decision.intent)) decision idempotencyKey t)).positions.get? key =
          s.positions.get? key := Dict.get?_set_of_ne _ (Ne.symm hkey) _
      rw [hget]
      exact hs key
  have h := hinv key
  rw [hpos] at h
  exact h

/-- The key of the sample intents in `RELIANCE`. -/
def sampleKey : PositionKey := (.nse, "paper-1", "RELIANCE")

/-- Ten bought at 100, then fifteen sold at 110. -/
def reversal : List Call :=
  [.execute (Sample.decision "1" (Sample.intent "1" "RELIANCE" .buy 10 100 (by decide))) "key-1" Sample.now,
   .execute (Sample.decision "2" (Sample.intent "2" "RELIANCE" .sell 15 110 (by decide))) "key-2" Sample.now]

/-- A buy and a larger sell, without slippage or fees: the position is short what the second sold
too much, at the price of the second. -/
theorem position_accounts_for_a_reversal :
    ∃ pos since, (after .cpython ⟨0, 0, by decide⟩ reversal).positions.get? sampleKey = some pos ∧
      pos.signedQuantity = -5 ∧ Accounts pos since := by
  have hpos : ((after .cpython ⟨0, 0, by decide⟩ reversal).positions.get? sampleKey).map
      PaperPosition.signedQuantity = some (-5) := by decide +kernel
  obtain ⟨pos, hget, hq⟩ := Option.map_eq_some_iff.mp hpos
  obtain ⟨-, since, -, -, hacc⟩ := position_accounts_for_its_fills .cpython ⟨0, 0, by decide⟩
    (by decide) reversal sampleKey pos hget
  exact ⟨pos, since, hget, hq, hacc⟩

/-! ### Replay -/

/-- The key is bound to the decision, with this receipt. -/
def Bound (s : PaperExecutionEngine) (m : String × RiskDecision) (receipt : ExecutionReceipt) : Prop :=
  isBlank m.1 = false ∧ s.receipts.get? m.1 = some receipt ∧ receipt.order.decisionId = m.2.decisionId

/-- A call of `execute` that returns has bound its key. -/
theorem bound_of_execute {decision : RiskDecision} {key : String} {executedAt : DateTime}
    {s s' : PaperExecutionEngine} {receipt : ExecutionReceipt}
    (h : execute host policy decision key executedAt s = .ok receipt s') : Bound s' (key, decision) receipt := by
  rcases execute_cases host policy decision key executedAt s with
    ⟨e, h'⟩ | ⟨_, hb, hr, hd, h'⟩ | ⟨t, _, hb, _, _, h'⟩ <;> rw [h'] at h <;> cases h
  · exact ⟨hb, hr, hd⟩
  · exact ⟨hb, Dict.get?_set_self .., rfl⟩

/-- A bound key returns its receipt and changes nothing. -/
theorem execute_of_bound {decision : RiskDecision} {key : String} {s : PaperExecutionEngine}
    {receipt : ExecutionReceipt} (h : Bound s (key, decision) receipt) (executedAt : DateTime) :
    execute host policy decision key executedAt s = .ok receipt s := by
  obtain ⟨hb, hr, hd⟩ := h
  simp only at hb hr hd
  simp [execute, hb, Effect.bind_apply, hr, hd]

/-- Recording a new fill leaves every bound key bound. -/
theorem Bound.record {s : PaperExecutionEngine} {m : String × RiskDecision} {receipt : ExecutionReceipt}
    (h : Bound s m receipt) {decision : RiskDecision} {key : String} (hfresh : s.receipts.get? key = none)
    (receipt' : ExecutionReceipt) : Bound (s.record decision key receipt') m receipt := by
  obtain ⟨hb, hr, hd⟩ := h
  have hne : m.1 ≠ key := by
    intro he
    rw [he, hfresh] at hr
    cases hr
  exact ⟨hb, (Dict.get?_set_of_ne _ hne _).trans hr, hd⟩

variable (host policy) in
/-- A bound key stays bound through any later calls. -/
theorem Bound.exec {s : PaperExecutionEngine} {m : String × RiskDecision} {receipt : ExecutionReceipt}
    (h : Bound s m receipt) (later : List Call) : Bound ((engine host policy).exec s later) m receipt :=
  Machine.exec_invariant (P := fun s => Bound s m receipt)
    (fun _ _ hs => call_invariant (P := fun s => Bound s m receipt)
      (fun _ _ _ _ _ hs hfresh _ => Bound.record hs hfresh _) hs) h later

/-- A loop over batch members that returns has bound each of their keys. -/
theorem bound_of_each {ms : List (String × RiskDecision)} {executedAt : DateTime}
    {s s' : PaperExecutionEngine} {receipts : List ExecutionReceipt}
    (h : Effect.each (fun m => execute host policy m.2 m.1 executedAt) ms s = .ok receipts s') :
    List.Forall₂ (Bound s') ms receipts := by
  induction ms generalizing s receipts with
  | nil =>
    obtain ⟨rfl, -⟩ := Effect.each_nil_eq_ok.mp h
    exact .nil
  | cons m ms ih =>
    obtain ⟨r, s₁, rs, hr, hrs, rfl⟩ := Effect.each_cons_eq_ok.mp h
    refine .cons ?_ (ih hrs)
    refine Effect.each_invariant (P := fun s => Bound s m r) ?_ (bound_of_execute hr) hrs
    intro m' _ s₂ r' s₃ hb hx
    exact execute_invariant (P := fun s => Bound s m r) (fun _ _ _ hs hfresh _ => Bound.record hs hfresh _) hb hx

/-- A loop over members whose keys are bound returns their receipts and changes nothing. -/
theorem each_of_bound {ms : List (String × RiskDecision)} {s : PaperExecutionEngine}
    {receipts : List ExecutionReceipt} (h : List.Forall₂ (Bound s) ms receipts) (executedAt : DateTime) :
    Effect.each (fun m => execute host policy m.2 m.1 executedAt) ms s = .ok receipts s := by
  induction h with
  | nil => rfl
  | cons hb _ ih => exact Effect.each_cons_eq_ok.mpr ⟨_, _, _, execute_of_bound hb executedAt, ih, rfl⟩

/-- A batch whose keys are all bound returns their receipts and changes nothing. -/
theorem executeBatch_of_bound {decisions : List RiskDecision} {batchId : String} {s : PaperExecutionEngine}
    {receipts : List ExecutionReceipt} (hblank : isBlank batchId = false)
    (happroved : ∀ d ∈ decisions, d.approved = true)
    (hnodup : ((members batchId decisions).map Prod.fst).Nodup)
    (h : List.Forall₂ (Bound s) (members batchId decisions) receipts) (executedAt : DateTime) :
    executeBatch host policy decisions batchId executedAt s = .ok receipts s := by
  have hany : ¬ (decisions.any fun decision => !decision.approved) = true := by
    rw [List.any_eq_true]
    rintro ⟨d, hd, hna⟩
    simp [happroved d hd] at hna
  unfold executeBatch
  simp only [hblank, hany, hnodup, not_true_eq_false, if_false, Bool.false_eq_true]
  rw [Effect.bind_of_ok (Effect.get_apply s), if_neg]
  · exact Effect.tryCatch_eq_ok_iff.mpr (each_of_bound h executedAt)
  · rw [List.any_eq_true]
    rintro ⟨m, hm, hne⟩
    obtain ⟨i, hi, rfl⟩ := List.getElem_of_mem hm
    have hb := List.Forall₂.get h hi (by rw [← h.length_eq]; exact hi)
    rw [List.get_eq_getElem, List.get_eq_getElem] at hb
    rw [hb.2.1] at hne
    simp [hb.2.2] at hne

/-! ### The fold -/

/-- A log: each recorded receipt with the decision it was recorded for. -/
abbrev Log := List (RiskDecision × ExecutionReceipt)

/-- The left fold of `_apply_fill` over the receipts of a key. -/
def foldOf (host : Host) (log : Log) (key : PositionKey) : Option PaperPosition :=
  (log.filter fun x => x.2.order.key = key).foldl (fun current x => some (applyFill host current x.1 x.2.fill))
    none

/-- The log is the engine's: its receipts in insertion order, each with an approved decision of
`calls` that its order was made for, and the positions are its folds. -/
structure LogOf (host : Host) (calls : List Call) (s : PaperExecutionEngine) (log : Log) : Prop where
  /-- The receipts, in insertion order. -/
  entries : s.receipts.entries = log.map fun x => (x.2.order.idempotencyKey, x.2)
  /-- Each order was made for a decision that some call submitted. -/
  submitted : ∀ x ∈ log, (∃ call ∈ calls, x.1 ∈ call.decisions) ∧ x.1.approved = true ∧
    x.2.order = newOrder host x.1 x.2.order.idempotencyKey x.2.order.submittedAt
  /-- Each position is the fold over the receipts of its key. -/
  positions : ∀ key, s.positions.get? key = foldOf host log key

theorem foldOf_concat (host : Host) (log : Log) (x : RiskDecision × ExecutionReceipt) (key : PositionKey) :
    foldOf host (log ++ [x]) key =
      if x.2.order.key = key then some (applyFill host (foldOf host log key) x.1 x.2.fill)
      else foldOf host log key := by
  unfold foldOf
  by_cases h : x.2.order.key = key <;> simp [List.filter_append, h]

theorem LogOf.record {calls : List Call} {s : PaperExecutionEngine} {log : Log} (h : LogOf host calls s log)
    {call : Call} (hcall : call ∈ calls) {decision : RiskDecision} (hd : decision ∈ call.decisions)
    (ha : decision.approved = true) {key : String} (hfresh : s.receipts.get? key = none) (t : Instant) :
    let receipt := newReceipt host policy (s.positions.get? (positionKey decision.intent)) decision key t
    LogOf host calls (s.record decision key receipt) (log ++ [(decision, receipt)]) := by
  intro receipt
  refine ⟨?_, ?_, ?_⟩
  · show (s.receipts.set key receipt).entries = _
    rw [Dict.entries_set_of_get?_eq_none hfresh, h.entries, List.map_append]
    rfl
  · intro x hx
    rcases List.mem_append.mp hx with hx | hx
    · exact h.submitted x hx
    · rw [List.mem_singleton.mp hx]
      exact ⟨⟨call, hcall, hd⟩, ha, rfl⟩
  · intro pkey
    show (s.positions.set (positionKey decision.intent) receipt.position).get? pkey = _
    rw [foldOf_concat, Dict.get?_set]
    by_cases hk : pkey = positionKey decision.intent
    · subst hk
      rw [if_pos rfl, if_pos (key_newReceipt _), ← h.positions]
      rfl
    · rw [if_neg hk, if_neg (fun he => hk ((key_newReceipt _).symm.trans he).symm), h.positions]

/-- **The ledger is the fold of its receipts.** After any run of calls, those that raise
included: the positions are the left folds of `_apply_fill` over the receipts of their keys in
insertion order; a call that raises leaves the engine as it was; and a call that returned, of
`execute` or of `execute_batch`, returns the same receipts and changes nothing when it is made
again at any time after any later calls. -/
theorem ledger_is_the_fold_of_its_receipts (host : Host) (policy : ExecutionPolicy) (calls : List Call) :
    (∃ log, LogOf host calls (after host policy calls) log) ∧
    (∀ (call : Call) (e : PyError) (s' : PaperExecutionEngine),
      call.run host policy (after host policy calls) = .error e s' → s' = after host policy calls) ∧
    (∀ (decision : RiskDecision) (key : String) (executedAt : DateTime) (receipt : ExecutionReceipt)
      (s' : PaperExecutionEngine),
      execute host policy decision key executedAt (after host policy calls) = .ok receipt s' →
      ∀ (later : List Call) (again : DateTime),
        execute host policy decision key again ((engine host policy).exec s' later) =
          .ok receipt ((engine host policy).exec s' later)) ∧
    (∀ (decisions : List RiskDecision) (batchId : String) (executedAt : DateTime)
      (receipts : List ExecutionReceipt) (s' : PaperExecutionEngine),
      executeBatch host policy decisions batchId executedAt (after host policy calls) = .ok receipts s' →
      ∀ (later : List Call) (again : DateTime),
        executeBatch host policy decisions batchId again ((engine host policy).exec s' later) =
          .ok receipts ((engine host policy).exec s' later) ∧
        List.Forall₂ (fun m receipt => execute host policy m.2 m.1 again ((engine host policy).exec s' later) =
          .ok receipt ((engine host policy).exec s' later)) (members batchId decisions) receipts) := by
  refine ⟨?_, fun _ _ _ h => Call.run_error h, ?_, ?_⟩
  · refine run_invariant (P := fun s => ∃ log, LogOf host calls s log)
      ⟨[], ⟨rfl, by simp, fun _ => rfl⟩⟩ ?_
    rintro call hcall decision hd s key t ⟨log, hlog⟩ hfresh ha
    exact ⟨_, hlog.record hcall hd ha hfresh t⟩
  · intro decision key executedAt receipt s' h later again
    exact execute_of_bound ((bound_of_execute h).exec host policy later) again
  · intro decisions batchId executedAt receipts s' h later again
    obtain ⟨hblank, happroved, hnodup, hloop⟩ := executeBatch_ok host policy h
    have hbound := (bound_of_each hloop).imp fun _ _ hb => hb.exec host policy later
    exact ⟨executeBatch_of_bound hblank happroved hnodup hbound again,
      hbound.imp fun _ _ hb => execute_of_bound hb again⟩

end NanoDelta.Paper
