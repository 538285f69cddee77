import NanoDelta.Decisions.Ledgers
import NanoDelta.Library.Paired
import NanoDelta.Paper.Accounting
import NanoDelta.Paper.ProtectiveExits

/-!
# Rejected exits

The risk engine may reject the exit of a plan: the snapshot is too old, does not have the position, or has
it in another size. The loop of `manage` records the rejection and goes on. Here runs are compared with runs
in which the plans whose exits are rejected are passed over: what else is exited, and when, should be the same.

With the durable ledger it is, for every store and engine. The ledger in memory raises when an exit is
rejected again at another time, for the decision has the id of the first one, and the loop ends there.

* `rejected_exits_do_not_prevent`: runs with the durable ledger, and runs with the one in memory in which no exit
  is rejected again at another time.
* `rejected_again`: two positions, the first of which is rejected twice.
-/

namespace NanoDelta.Paper

open Library Strategies Decisions Risk Outcomes Orchestration

/-! ### Management without the rejected exits -/

section Rejections

variable (host : Host)

/-- The reason of an exit that is due and that the risk engine rejects. -/
def rejection (limits : RiskLimits) (marks : Dict String ℚ) (portfolio : PortfolioSnapshot)
    (goldSnapshotIds : Dict String String) (t : Instant) (plan : ExitPlan) : Option ExitReason :=
  match marks.get? plan.symbol with
  | none => none
  | some mark =>
    match trigger plan mark with
    | none => none
    | some reason =>
      match exitIntent host plan reason mark goldSnapshotIds t with
      | .error _ => none
      | .ok intent =>
        match evaluateExit host limits intent portfolio (.aware t) with
        | .error _ => none
        | .ok decision => if decision.approved = false then some reason else none

/-- `manage`, with the plans whose exits are rejected passed over. -/
def PaperPositionLifecycle.manageOthers {Ω : Type} (self : PaperPositionLifecycle Ω) (market : Market)
    (accountId : String) (marks : Dict String ℚ) (portfolio : PortfolioSnapshot)
    (goldSnapshotIds : Dict String String) (evaluatedAt : DateTime) : EStateM PyError Ω (List Outcome) := do
  let t ← Effect.ofExcept (utc evaluatedAt "evaluated_at")
  let plans ← self.store.active market accountId
  Effect.collect (managePlan host self marks portfolio goldSnapshotIds t)
    (plans.filter fun plan => rejection host self.limits marks portfolio goldSnapshotIds t plan = none)

/-- The id of the decision that `_record` writes. -/
def exitDecisionId (plan : ExitPlan) (reason : ExitReason) (status : DecisionStatus) (code : String) : String :=
  stableId host [stableId host ["exit-cycle", plan.positionId, reason.value], plan.market.value, plan.symbol,
    strOption (some plan.identity.timeframe), DecisionStage.positionManagement.value, status.value, code,
    strOption (some plan.candidateId), strOption (some (plan.identity.key host))]

/-- The decision that `_record` writes. -/
def exitDecision (plan : ExitPlan) (reason : ExitReason) (t : Instant) (status : DecisionStatus) (code : String) :
    Decision where
  decisionId := exitDecisionId host plan reason status code
  cycleId := stableId host ["exit-cycle", plan.positionId, reason.value]
  market := plan.market
  symbol := plan.symbol
  timeframe := some plan.identity.timeframe
  stage := .positionManagement
  status := status
  reasonCode := code
  occurredAt := t
  candidateId := some plan.candidateId
  strategyKey := some (plan.identity.key host)
  detail := ""
  metrics := []

/-- The rejection of an exit. -/
abbrev rejected (plan : ExitPlan) (reason : ExitReason) (t : Instant) : Decision :=
  exitDecision host plan reason t .rejected "EXIT_RISK_REJECTED"

end Rejections

/-! ### Runs -/

section Machines

variable (host : Host) (policy : ExecutionPolicy) (limits : RiskLimits)

/-- The desk, with the plans whose exits are rejected passed over. -/
def deskOfOthers : Machine Desk DeskInput Unit where
  step s
    | .manage market accountId marks portfolio goldSnapshotIds evaluatedAt => (Effect.final
        ((memoryLifecycle host policy limits).manageOthers host market accountId marks portfolio goldSnapshotIds
          evaluatedAt s), ())
    | input => (desk host policy limits).step s input

/-- The two desks have the same entries, positions, plans and outcomes. -/
structure SameButLedger (s t : Desk) : Prop where
  engine : s.engine = t.engine
  store : s.store = t.store
  recorder : s.recorder = t.recorder
  entries : s.entries = t.entries

/-- No exit is rejected again at another time. -/
def RejectedOnce (s : Desk) : DeskInput → Prop
  | .manage market accountId marks portfolio goldSnapshotIds evaluatedAt =>
    ∀ t ∈ (utc evaluatedAt "evaluated_at").toOption, ∀ plan ∈ s.store.active market accountId,
      ∀ reason ∈ rejection host limits marks portfolio goldSnapshotIds t plan,
        KnownDecision s.ledger (rejected host plan reason t)
  | _ => True

instance (s : Desk) : (input : DeskInput) → Decidable (RejectedOnce host limits s input)
  | .enter _ => isTrue trivial
  | .register _ => isTrue trivial
  | .manage market accountId marks portfolio goldSnapshotIds evaluatedAt =>
    inferInstanceAs (Decidable (∀ t ∈ (utc evaluatedAt "evaluated_at").toOption,
      ∀ plan ∈ s.store.active market accountId,
        ∀ reason ∈ rejection host limits marks portfolio goldSnapshotIds t plan,
          KnownDecision s.ledger (rejected host plan reason t)))

end Machines

/-! ### Any store and engine, with a ledger beside them -/

/-- The lifecycle with another ledger, which has a state of its own. -/
def PaperPositionLifecycle.withLedger {Ω Λ : Type} (self : PaperPositionLifecycle Ω) (ledger : DecisionLedger Λ) :
    PaperPositionLifecycle (Ω × Λ) where
  store :=
    { savePlan := fun plan => Effect.focus Prod.fst (fun s t => (t, s.2)) (self.store.savePlan plan)
      active := fun market accountId => Effect.focus Prod.fst (fun s t => (t, s.2)) (self.store.active market accountId)
      saveOutcome := fun outcome reason =>
        Effect.focus Prod.fst (fun s t => (t, s.2)) (self.store.saveOutcome outcome reason) }
  execute decision idempotencyKey executedAt :=
    Effect.focus Prod.fst (fun s t => (t, s.2)) (self.execute decision idempotencyKey executedAt)
  limits := self.limits
  ledger :=
    { appendCandidate := fun candidate decision =>
        Effect.focus Prod.snd (fun s t => (s.1, t)) (ledger.appendCandidate candidate decision)
      append := fun decision => Effect.focus Prod.snd (fun s t => (s.1, t)) (ledger.append decision) }
  record position identity allocatedCapital recordedAt :=
    Effect.focus Prod.fst (fun s t => (t, s.2)) (self.record position identity allocatedCapital recordedAt)

/-- What happens to a lifecycle and its ledger. -/
inductive ManagedInput (Ω : Type) where
  /-- The plans of a market and an account are managed. -/
  | manage (market : Market) (accountId : String) (marks : Dict String ℚ) (portfolio : PortfolioSnapshot)
      (goldSnapshotIds : Dict String String) (evaluatedAt : DateTime)
  /-- Entries, plans and prices: anything but the ledger changes. -/
  | others (update : Ω → Ω)
  /-- Another stage writes to the ledger. -/
  | log (call : LedgerCall)

section Managed

variable (host : Host) {Ω Λ : Type} (self : PaperPositionLifecycle Ω) (ledger : DecisionLedger Λ)

/-- A lifecycle with its ledger, as a machine. A call of `manage` gives what it returns or raises. -/
def managed : Machine (Ω × Λ) (ManagedInput Ω) (Except PyError (List Outcome)) where
  step s
    | .manage market accountId marks portfolio goldSnapshotIds evaluatedAt =>
      let result := (self.withLedger ledger).manage host market accountId marks portfolio goldSnapshotIds evaluatedAt s
      (Effect.final result, outcome result)
    | .others update => ((update s.1, s.2), .ok [])
    | .log call => ((s.1, Effect.final (call.program ledger s.2)), .ok [])

/-- The same, with the plans whose exits are rejected passed over. -/
def managedOthers : Machine (Ω × Λ) (ManagedInput Ω) (Except PyError (List Outcome)) where
  step s
    | .manage market accountId marks portfolio goldSnapshotIds evaluatedAt =>
      let result :=
        (self.withLedger ledger).manageOthers host market accountId marks portfolio goldSnapshotIds evaluatedAt s
      (Effect.final result, outcome result)
    | .others update => ((update s.1, s.2), .ok [])
    | .log call => ((s.1, Effect.final (call.program ledger s.2)), .ok [])

end Managed

/-! ### Two loops in step -/

section InStep

variable {host : Host} {σ τ : Type} {self : PaperPositionLifecycle σ} {self' : PaperPositionLifecycle τ}

/-- The decision about an exit that was made. -/
abbrev ordered (host : Host) (plan : ExitPlan) (reason : ExitReason) (t : Instant) : Decision :=
  exitDecision host plan reason t .ordered ("PAPER_" ++ reason.value ++ "_EXIT")

theorem rejection_eq_some {limits : RiskLimits} {marks : Dict String ℚ} {portfolio : PortfolioSnapshot}
    {golds : Dict String String} {t : Instant} {plan : ExitPlan} {reason : ExitReason} :
    rejection host limits marks portfolio golds t plan = some reason ↔
      ∃ mark intent decision, marks.get? plan.symbol = some mark ∧ trigger plan mark = some reason ∧
        exitIntent host plan reason mark golds t = .ok intent ∧
        evaluateExit host limits intent portfolio (.aware t) = .ok decision ∧ decision.approved = false := by
  unfold rejection
  constructor
  · intro h
    cases hmark : marks.get? plan.symbol with
    | none => simp only [hmark] at h; cases h
    | some mark =>
      cases htrigger : trigger plan mark with
      | none => simp only [hmark, htrigger] at h; cases h
      | some reason' =>
        cases hintent : exitIntent host plan reason' mark golds t with
        | error e => simp only [hmark, htrigger, hintent] at h; cases h
        | ok intent =>
          cases hdecision : evaluateExit host limits intent portfolio (.aware t) with
          | error e => simp only [hmark, htrigger, hintent, hdecision] at h; cases h
          | ok decision =>
            simp only [hmark, htrigger, hintent, hdecision] at h
            split_ifs at h with happroved
            cases h
            exact ⟨mark, intent, decision, rfl, htrigger, hintent, hdecision, happroved⟩
  · rintro ⟨mark, intent, decision, hmark, htrigger, hintent, hdecision, happroved⟩
    simp only [hmark, htrigger, hintent, hdecision, happroved, if_true]

/-- A plan that has an intent has a symbol. -/
theorem symbol_of_exitIntent {plan : ExitPlan} {reason : ExitReason} {mark : ℚ} {golds : Dict String String}
    {t : Instant} {intent : TradeIntent} (h : exitIntent host plan reason mark golds t = .ok intent) :
    plan.symbol ≠ "" := by
  unfold exitIntent TradeIntent.create at h
  simp only at h
  split_ifs at h with _ _ hblank
  exact fun hsymbol => hblank (Or.inr (Or.inl hsymbol))

/-- What `_record` writes for a plan with a symbol. -/
theorem recordExit_eq (hdigest : ∀ text, host.sha256 text ≠ "") {plan : ExitPlan} (hsymbol : plan.symbol ≠ "")
    (reason : ExitReason) (t : Instant) (status : DecisionStatus) {code : String} (hcode : code ≠ "") :
    recordExit host self plan reason t status code = self.ledger.append (exitDecision host plan reason t status code) := by
  have hcreate : Decision.create host (stableId host ["exit-cycle", plan.positionId, reason.value]) plan.market
      plan.symbol (some plan.identity.timeframe) .positionManagement status code (.aware t) (some plan.candidateId)
      (some (plan.identity.key host)) "" [] = .ok (exitDecision host plan reason t status code) := by
    unfold Decision.create
    rw [if_neg (by simp [hdigest, stableId, hsymbol, hcode]), if_neg (by simp)]
    rfl
  unfold recordExit
  rw [hcreate, Effect.ofExcept_ok, pure_bind]

/-- What the loop does for a plan whose exit is rejected: it writes the rejection. -/
theorem managePlan_of_rejected (hdigest : ∀ text, host.sha256 text ≠ "") {marks : Dict String ℚ}
    {portfolio : PortfolioSnapshot} {golds : Dict String String} {t : Instant} {plan : ExitPlan} {reason : ExitReason}
    (h : rejection host self.limits marks portfolio golds t plan = some reason) :
    managePlan host self marks portfolio golds t plan =
      (do self.ledger.append (rejected host plan reason t); return none) := by
  obtain ⟨mark, intent, decision, hmark, htrigger, hintent, hdecision, happroved⟩ := rejection_eq_some.mp h
  unfold managePlan
  simp only [hmark, htrigger, closePlan, hintent, hdecision, happroved, if_true, Effect.ofExcept_ok, pure_bind]
  rw [recordExit_eq hdigest (symbol_of_exitIntent hintent) reason t .rejected (by decide)]

/-- The two lifecycles judge exits by the same limits, and their engines, recorders and stores are in step. -/
structure InStep (R : σ → τ → Prop) (one : PaperPositionLifecycle σ) (other : PaperPositionLifecycle τ) : Prop where
  limits : other.limits = one.limits
  execute : ∀ decision key executedAt s t, R s t →
    Effect.Paired R (one.execute decision key executedAt s) (other.execute decision key executedAt t)
  record : ∀ position identity capital recordedAt s t, R s t →
    Effect.Paired R (one.record position identity capital recordedAt s) (other.record position identity capital recordedAt t)
  saveOutcome : ∀ outcome reason s t, R s t →
    Effect.Paired R (one.store.saveOutcome outcome reason s) (other.store.saveOutcome outcome reason t)

variable {R : σ → τ → Prop}

/-- The loop does the same for a plan whose exit is not rejected. -/
theorem InStep.managePlan (hdigest : ∀ text, host.sha256 text ≠ "") (h : InStep R self self') {marks : Dict String ℚ}
    {portfolio : PortfolioSnapshot} {golds : Dict String String} {now : Instant} {plan : ExitPlan}
    (hkept : rejection host self.limits marks portfolio golds now plan = none)
    (hordered : ∀ reason s t, R s t → Effect.Paired R (self.ledger.append (ordered host plan reason now) s)
      (self'.ledger.append (ordered host plan reason now) t)) {s : σ} {t : τ} (hR : R s t) :
    Effect.Paired R (managePlan host self marks portfolio golds now plan s)
      (managePlan host self' marks portfolio golds now plan t) := by
  unfold Paper.managePlan
  cases hmark : marks.get? plan.symbol with
  | none => exact Effect.paired_pure none hR
  | some mark =>
    dsimp only
    cases htrigger : trigger plan mark with
    | none => exact Effect.paired_pure none hR
    | some reason =>
      dsimp only
      unfold closePlan
      refine Effect.paired_ofExcept hR fun intent hintent => ?_
      rw [h.limits]
      refine Effect.paired_ofExcept hR fun decision hdecision => ?_
      have happroved : decision.approved ≠ false := by
        intro happroved
        rw [rejection_eq_some.mpr ⟨mark, intent, decision, hmark, htrigger, hintent, hdecision, happroved⟩] at hkept
        cases hkept
      rw [if_neg happroved, if_neg happroved]
      refine Effect.Paired.bind (h.execute _ _ _ s t hR) fun receipt s₁ t₁ h₁ => ?_
      refine Effect.Paired.bind (h.record _ _ _ _ s₁ t₁ h₁) fun outcome s₂ t₂ h₂ => ?_
      refine Effect.Paired.bind (h.saveOutcome _ _ s₂ t₂ h₂) fun _ s₃ t₃ h₃ => ?_
      have hsymbol := symbol_of_exitIntent hintent
      have hcode : "PAPER_" ++ reason.value ++ "_EXIT" ≠ "" := by cases reason <;> decide
      rw [recordExit_eq hdigest hsymbol reason now .ordered hcode, recordExit_eq hdigest hsymbol reason now .ordered hcode]
      refine Effect.Paired.bind (hordered reason s₃ t₃ h₃) fun _ s₄ t₄ h₄ => ?_
      exact Effect.paired_pure (some outcome) h₄

/-- **The loop over all plans is in step with the loop over the others**, if what is written for an exit that was
made keeps the relation, and so does what only the first loop writes for one that was rejected. -/
theorem InStep.managePlans (hdigest : ∀ text, host.sha256 text ≠ "") (h : InStep R self self') {marks : Dict String ℚ}
    {portfolio : PortfolioSnapshot} {golds : Dict String String} {now : Instant} {plans : List ExitPlan}
    (hordered : ∀ plan ∈ plans, ∀ reason s t, R s t →
      Effect.Paired R (self.ledger.append (ordered host plan reason now) s)
        (self'.ledger.append (ordered host plan reason now) t))
    (hrejected : ∀ plan ∈ plans, ∀ reason ∈ rejection host self.limits marks portfolio golds now plan, ∀ s t, R s t →
      ∃ s', self.ledger.append (rejected host plan reason now) s = .ok () s' ∧ R s' t)
    {s : σ} {t : τ} (hR : R s t) :
    Effect.Paired R (Effect.collect (Paper.managePlan host self marks portfolio golds now) plans s)
      (Effect.collect (Paper.managePlan host self' marks portfolio golds now)
        (plans.filter fun plan => rejection host self'.limits marks portfolio golds now plan = none) t) := by
  rw [h.limits]
  refine Effect.paired_collect_filter ?_ ?_ hR
  · intro plan hplan hkept s t hR
    exact h.managePlan hdigest (of_decide_eq_true hkept) (hordered plan hplan) hR
  · intro plan hplan hleft s t hR
    cases hreason : rejection host self.limits marks portfolio golds now plan with
    | none => simp [hreason] at hleft
    | some reason =>
      obtain ⟨s', hs', hR'⟩ := hrejected plan hplan reason hreason s t hR
      rw [managePlan_of_rejected hdigest hreason, Effect.bind_of_ok hs']
      exact ⟨s', rfl, hR'⟩

end InStep

/-! ### The durable ledger -/

section Durable

variable {host : Host} {Ω Λ : Type}

/-- A program on all but the ledger. -/
theorem onFirst {α : Type} (x : EStateM PyError Ω α) {s t : Ω × Λ} (h : s.1 = t.1) :
    Effect.Paired (fun s t : Ω × Λ => s.1 = t.1) (Effect.focus Prod.fst (fun s u => (u, s.2)) x s)
      (Effect.focus Prod.fst (fun s u => (u, s.2)) x t) :=
  Effect.paired_focus x h fun _ _ => rfl

theorem inStep_withLedger (self : PaperPositionLifecycle Ω) (ledger : DecisionLedger Λ) :
    InStep (fun s t : Ω × Λ => s.1 = t.1) (self.withLedger ledger) (self.withLedger ledger) :=
  ⟨rfl, fun decision key executedAt _ _ h => onFirst (self.execute decision key executedAt) h,
    fun position identity capital recordedAt _ _ h => onFirst (self.record position identity capital recordedAt) h,
    fun outcome reason _ _ h => onFirst (self.store.saveOutcome outcome reason) h⟩

/-- The durable ledger takes every decision. -/
theorem withLedger_append (self : PaperPositionLifecycle Ω) (decision : Decision) (s : Ω × ControlTables) :
    (self.withLedger PostgresDecisionLedger.ledger).ledger.append decision s =
      .ok () (s.1, PostgresDecisionLedger.insertDecision decision s.2) := rfl

/-- **A step with the durable ledger** does the same, but for the ledger, when the rejected exits are passed over. -/
theorem managed_step (hdigest : ∀ text, host.sha256 text ≠ "") (self : PaperPositionLifecycle Ω)
    (s t : Ω × ControlTables) (input : ManagedInput Ω) (h : s.1 = t.1) :
    let next := (managed host self PostgresDecisionLedger.ledger).step s input
    let next' := (managedOthers host self PostgresDecisionLedger.ledger).step t input
    next.1.1 = next'.1.1 ∧ next.2 = next'.2 := by
  cases input with
  | manage market accountId marks portfolio golds evaluatedAt =>
    have hpaired : Effect.Paired (fun s t : Ω × ControlTables => s.1 = t.1)
        ((self.withLedger PostgresDecisionLedger.ledger).manage host market accountId marks portfolio golds evaluatedAt s)
        ((self.withLedger PostgresDecisionLedger.ledger).manageOthers host market accountId marks portfolio golds
          evaluatedAt t) := by
      refine Effect.paired_ofExcept h fun now _ => ?_
      refine Effect.Paired.bind (onFirst (self.store.active market accountId) h) ?_
      intro plans s₁ t₁ h₁
      refine (inStep_withLedger self PostgresDecisionLedger.ledger).managePlans hdigest ?_ ?_ h₁
      · intro plan _ reason s₂ t₂ h₂
        rw [withLedger_append, withLedger_append]
        exact .ok () h₂
      · intro plan _ reason _ s₂ t₂ h₂
        exact ⟨_, withLedger_append self _ s₂, h₂⟩
    refine ⟨hpaired.final, ?_⟩
    show outcome _ = outcome _
    generalize PaperPositionLifecycle.manage _ _ _ _ _ _ _ _ _ = x at hpaired
    generalize PaperPositionLifecycle.manageOthers _ _ _ _ _ _ _ _ _ = y at hpaired
    cases hpaired <;> rfl
  | others update => exact ⟨congrArg update h, rfl⟩
  | log call => exact ⟨h, rfl⟩

end Durable

/-! ### The ledger in memory -/

section InMemory

variable {host : Host} {policy : ExecutionPolicy} {limits : RiskLimits}

/-- What the id of an exit's decision tells: the position, and the reason of the exit. -/
theorem exitDecisionId_inj (hhost : Text.CollisionFree host.sha256) {p q : ExitPlan} {reason reason' : ExitReason}
    {status status' : DecisionStatus} {code code' : String}
    (h : exitDecisionId host p reason status code = exitDecisionId host q reason' status' code') :
    p.positionId = q.positionId ∧ reason = reason' := by
  have hbegins : ∀ (a b c d e f g k l : String), "|".intercalate [a, b, c, d, e, f, g, k, l] =
      a ++ "|" ++ (b ++ "|" ++ c ++ "|" ++ d ++ "|" ++ e ++ "|" ++ f ++ "|" ++ g ++ "|" ++ k ++ "|" ++ l) := by
    intro a b c d e f g k l
    show a ++ "|" ++ b ++ "|" ++ c ++ "|" ++ d ++ "|" ++ e ++ "|" ++ f ++ "|" ++ g ++ "|" ++ k ++ "|" ++ l = _
    simp only [String.append_assoc]
  unfold exitDecisionId at h
  have h₁ := hhost.injective h
  rw [hbegins, hbegins] at h₁
  have hcycle : host.sha256 ("exit-cycle" ++ "|" ++ p.positionId ++ "|" ++ reason.value) =
      host.sha256 ("exit-cycle" ++ "|" ++ q.positionId ++ "|" ++ reason'.value) :=
    (Text.bar_append_inj (hhost.plain _) (hhost.plain _) h₁).1
  have hplain : ∀ r : ExitReason, '|' ∉ r.value.toList := by
    intro r
    cases r <;> decide
  obtain ⟨hpositions, hreasons⟩ := Text.append_bar_inj (hplain reason) (hplain reason') (hhost.injective hcycle)
  refine ⟨(String.append_right_inj _).mp hpositions, ?_⟩
  cases reason <;> cases reason' <;> first | rfl | exact absurd hreasons (by decide)

/-- An exit that was made and one that was rejected have decisions with different ids. -/
theorem ordered_ne_rejected (hhost : Text.CollisionFree host.sha256) {plan : ExitPlan} {reason : ExitReason}
    {t t' : Instant} : (ordered host plan reason t).decisionId ≠ (rejected host plan reason t').decisionId := by
  intro h
  have htexts := hhost.injective h
  have hsplit : ∀ a b : String, "|".intercalate [stableId host ["exit-cycle", plan.positionId, reason.value],
      plan.market.value, plan.symbol, strOption (some plan.identity.timeframe),
      DecisionStage.positionManagement.value, a, b, strOption (some plan.candidateId),
      strOption (some (plan.identity.key host))] =
      (stableId host ["exit-cycle", plan.positionId, reason.value] ++ "|" ++ plan.market.value ++ "|" ++ plan.symbol ++
        "|" ++ strOption (some plan.identity.timeframe) ++ "|" ++ DecisionStage.positionManagement.value ++ "|") ++
      (a ++ "|" ++ b) ++ ("|" ++ strOption (some plan.candidateId) ++ "|" ++
        strOption (some (plan.identity.key host))) := by
    intro a b
    show stableId host ["exit-cycle", plan.positionId, reason.value] ++ "|" ++ plan.market.value ++ "|" ++ plan.symbol ++
        "|" ++ strOption (some plan.identity.timeframe) ++ "|" ++ DecisionStage.positionManagement.value ++ "|" ++ a ++
        "|" ++ b ++ "|" ++ strOption (some plan.candidateId) ++ "|" ++ strOption (some (plan.identity.key host)) = _
    simp only [String.append_assoc]
  rw [hsplit, hsplit, String.append_left_inj, String.append_right_inj] at htexts
  cases reason <;> exact absurd htexts (by decide)

/-- The plan is filed in the store. -/
def FiledPlan (store : MemoryLifecycleStore) (plan : ExitPlan) : Prop :=
  store.plans.get? plan.positionId = some plan

/-- The desk and the desk of the others: the ledgers differ only in rejections of filed plans. -/
structure Shadowed (host : Host) (s t : Desk) : Prop where
  same : SameButLedger s t
  /-- Plans are filed under their positions. -/
  keyed : ∀ positionId plan, s.store.plans.get? positionId = some plan → plan.positionId = positionId
  /-- The ledgers have the same decisions, up to rejections. -/
  ledger : ∀ id, (∀ plan reason t₀, FiledPlan s.store plan → id ≠ (rejected host plan reason t₀).decisionId) →
    s.ledger.decisions.get? id = t.ledger.decisions.get? id

theorem shadowed_new (host : Host) : Shadowed host .new .new :=
  ⟨⟨rfl, rfl, rfl, rfl⟩, fun _ _ h => (nomatch h), fun _ _ => rfl⟩

/-- What is active is filed. -/
theorem Shadowed.filed {s t : Desk} (h : Shadowed host s t) {market : Market} {accountId : String} {plan : ExitPlan}
    (hplan : plan ∈ s.store.active market accountId) : FiledPlan s.store plan := by
  unfold MemoryLifecycleStore.active at hplan
  obtain ⟨⟨positionId, plan'⟩, he, rfl⟩ := List.mem_map.mp hplan
  have hget := Dict.get?_eq_some_iff.mpr (List.mem_filter.mp he).1
  unfold FiledPlan
  rw [h.keyed positionId plan' hget]
  exact hget

/-- In the loop of a call: the plans are filed, and no rejection that is due is in the ledger otherwise. -/
structure InCall (host : Host) (limits : RiskLimits) (marks : Dict String ℚ) (portfolio : PortfolioSnapshot)
    (golds : Dict String String) (now : Instant) (plans : List ExitPlan) (s t : Desk) : Prop where
  shadowed : Shadowed host s t
  filed : ∀ plan ∈ plans, FiledPlan s.store plan
  known : ∀ plan ∈ plans, ∀ reason ∈ rejection host limits marks portfolio golds now plan,
    KnownDecision s.ledger (rejected host plan reason now)

variable {marks : Dict String ℚ} {portfolio : PortfolioSnapshot} {golds : Dict String String} {now : Instant}
  {plans : List ExitPlan} {s t : Desk}

/-- A step that leaves the ledgers and the plans, and does the same otherwise. -/
theorem InCall.of_same (h : InCall host limits marks portfolio golds now plans s t) {s' t' : Desk}
    (hsame : SameButLedger s' t') (hplans : s'.store.plans = s.store.plans) (hs : s'.ledger = s.ledger)
    (ht : t'.ledger = t.ledger) : InCall host limits marks portfolio golds now plans s' t' := by
  refine ⟨⟨hsame, ?_, ?_⟩, ?_, ?_⟩
  · rw [hplans]
    exact h.shadowed.keyed
  · unfold FiledPlan
    rw [hplans, hs, ht]
    exact h.shadowed.ledger
  · unfold FiledPlan
    rw [hplans]
    exact h.filed
  · rw [hs]
    exact h.known

theorem final_saveOutcome (outcome : Outcome) (reason : ExitReason) (store : MemoryLifecycleStore) :
    (Effect.final (MemoryLifecycleStore.saveOutcome outcome reason store)).plans = store.plans := by
  unfold MemoryLifecycleStore.saveOutcome
  simp only
  split
  · split_ifs <;> rfl
  · rfl

theorem inStep_inCall : InStep (InCall host limits marks portfolio golds now plans)
    (memoryLifecycle host policy limits) (memoryLifecycle host policy limits) := by
  unfold memoryLifecycle
  refine ⟨rfl, ?_, ?_, ?_⟩
  · intro decision key executedAt s t h
    obtain ⟨hengine, hstore, hrecorder, hentries⟩ := h.shadowed.same
    dsimp only
    refine Effect.paired_focus _ hengine fun _ _ => ?_
    exact h.of_same ⟨rfl, hstore, hrecorder, hentries⟩ rfl rfl rfl
  · intro position identity capital recordedAt s t h
    obtain ⟨hengine, hstore, hrecorder, hentries⟩ := h.shadowed.same
    dsimp only
    refine Effect.paired_focus _ hrecorder fun _ _ => ?_
    exact h.of_same ⟨hengine, hstore, rfl, hentries⟩ rfl rfl rfl
  · intro outcome reason s t h
    obtain ⟨hengine, hstore, hrecorder, hentries⟩ := h.shadowed.same
    dsimp only
    refine Effect.paired_focus _ hstore fun store hstored => ?_
    refine h.of_same ⟨hengine, rfl, hrecorder, hentries⟩ ?_ rfl rfl
    rw [← hstored]
    exact final_saveOutcome outcome reason s.store

/-- A filed plan is told by its position. -/
theorem FiledPlan.eq {store : MemoryLifecycleStore} {p q : ExitPlan} (hp : FiledPlan store p) (hq : FiledPlan store q)
    (h : p.positionId = q.positionId) : p = q := by
  unfold FiledPlan at hp hq
  rw [h, hq] at hp
  exact (Option.some.inj hp).symm

/-- The decision of an exit that was made is new to both ledgers, or known to both, or neither takes it. -/
theorem InCall.append_ordered (hhost : Text.CollisionFree host.sha256)
    (h : InCall host limits marks portfolio golds now plans s t) {plan : ExitPlan} (hplan : plan ∈ plans)
    (reason : ExitReason) :
    Effect.Paired (InCall host limits marks portfolio golds now plans)
      ((memoryLifecycle host policy limits).ledger.append (ordered host plan reason now) s)
      ((memoryLifecycle host policy limits).ledger.append (ordered host plan reason now) t) := by
  have hnot : ∀ p r t₀, FiledPlan s.store p → (ordered host plan reason now).decisionId ≠
      (rejected host p r t₀).decisionId := by
    intro p r t₀ hp hid
    obtain ⟨hposition, rfl⟩ := exitDecisionId_inj hhost hid
    obtain rfl := (h.filed plan hplan).eq hp hposition
    exact ordered_ne_rejected hhost hid
  obtain ⟨hengine, hstore, hrecorder, hentries⟩ := h.shadowed.same
  have hget := h.shadowed.ledger _ hnot
  have hiff : KnownDecision s.ledger (ordered host plan reason now) ↔
      KnownDecision t.ledger (ordered host plan reason now) := by
    unfold KnownDecision
    rw [hget]
  show Effect.Paired _ (Effect.focus Desk.ledger (fun s t => { s with ledger := t }) _ s)
    (Effect.focus Desk.ledger (fun s t => { s with ledger := t }) _ t)
  by_cases hknown : KnownDecision s.ledger (ordered host plan reason now)
  · rw [Effect.focus_of_ok (append_of_known _ hknown), Effect.focus_of_ok (append_of_known _ (hiff.mp hknown))]
    refine .ok () ⟨⟨⟨hengine, hstore, hrecorder, hentries⟩, h.shadowed.keyed, ?_⟩, h.filed, ?_⟩
    · intro id hid
      simp only [Dict.get?_set]
      split
      · rfl
      · exact h.shadowed.ledger id hid
    · intro p hp r hr existing hexisting
      rw [Option.mem_def, Dict.get?_set_of_ne _ (hnot p r now (h.filed p hp)).symm] at hexisting
      exact h.known p hp r hr existing hexisting
  · rw [Effect.focus_of_error (append_of_not_known _ hknown),
      Effect.focus_of_error (append_of_not_known _ (fun hk => hknown (hiff.mpr hk)))]
    exact .error _ h

/-- The ledger takes a rejection that it does not have otherwise, and then those of the other plans are as they
were. -/
theorem InCall.append_rejected (hhost : Text.CollisionFree host.sha256)
    (h : InCall host limits marks portfolio golds now plans s t) {plan : ExitPlan} (hplan : plan ∈ plans)
    {reason : ExitReason} (hreason : reason ∈ rejection host limits marks portfolio golds now plan) :
    ∃ s', (memoryLifecycle host policy limits).ledger.append (rejected host plan reason now) s = .ok () s' ∧
      InCall host limits marks portfolio golds now plans s' t := by
  obtain ⟨hengine, hstore, hrecorder, hentries⟩ := h.shadowed.same
  unfold memoryLifecycle
  dsimp only
  refine ⟨_, Effect.focus_of_ok (append_of_known _ (h.known plan hplan reason hreason)),
    ⟨⟨hengine, hstore, hrecorder, hentries⟩, h.shadowed.keyed, ?_⟩, h.filed, ?_⟩
  · intro id hid
    rw [← h.shadowed.ledger id hid]
    exact Dict.get?_set_of_ne _ (hid plan reason now (h.filed plan hplan)) _
  · intro p hp r hr existing hexisting
    rw [Option.mem_def, Dict.get?_set] at hexisting
    split_ifs at hexisting with hid
    · obtain ⟨hposition, rfl⟩ := exitDecisionId_inj hhost hid
      obtain rfl := (h.filed p hp).eq (h.filed plan hplan) hposition
      exact (Option.some.inj hexisting).symm
    · exact h.known p hp r hr existing hexisting

/-- Filing a plan keeps the plans that are filed. -/
theorem Shadowed.savePlan (h : Shadowed host s t) (plan : ExitPlan) :
    Effect.Paired (Shadowed host) ((memoryLifecycle host policy limits).store.savePlan plan s)
      ((memoryLifecycle host policy limits).store.savePlan plan t) := by
  obtain ⟨hengine, hstore, hrecorder, hentries⟩ := h.same
  unfold memoryLifecycle
  dsimp only
  refine Effect.paired_focus _ hstore fun store hstored => ?_
  have hset : store.plans = s.store.plans ∨ store.plans = s.store.plans.set plan.positionId plan ∧
      ∀ existing ∈ s.store.plans.get? plan.positionId, existing = plan := by
    rw [← hstored]
    unfold MemoryLifecycleStore.savePlan
    cases hget : s.store.plans.get? plan.positionId with
    | none => exact Or.inr ⟨rfl, fun _ hnone => (nomatch hnone)⟩
    | some existing =>
      dsimp only
      split_ifs with hne
      · exact Or.inl rfl
      · refine Or.inr ⟨rfl, fun existing' hexisting => ?_⟩
        cases hexisting
        exact not_not.mp hne
  have hfiled : ∀ p, FiledPlan s.store p → FiledPlan store p := by
    intro p hp
    unfold FiledPlan at hp ⊢
    rcases hset with hset | ⟨hset, hknown⟩
    · rw [hset]
      exact hp
    · rw [hset, Dict.get?_set]
      split_ifs with hid
      · rw [hid] at hp
        rw [hknown p hp]
      · exact hp
  refine ⟨⟨hengine, rfl, hrecorder, hentries⟩, ?_, ?_⟩
  · intro positionId p hget
    have hget' : store.plans.get? positionId = some p := hget
    rcases hset with hset | ⟨hset, -⟩
    · rw [hset] at hget'
      exact h.keyed positionId p hget'
    · rw [hset, Dict.get?_set] at hget'
      split_ifs at hget' with hid
      · cases hget'
        exact hid.symm
      · exact h.keyed positionId p hget'
  · exact fun id hid => h.ledger id fun p r t₀ hp => hid p r t₀ (hfiled p hp)

theorem Shadowed.register (h : Shadowed host s t) (pairs : List (PortfolioAllocation × ExecutionReceipt)) :
    Effect.Paired (Shadowed host)
      ((memoryLifecycle host policy limits).register (pairs.map Prod.fst) (pairs.map Prod.snd) s)
      ((memoryLifecycle host policy limits).register (pairs.map Prod.fst) (pairs.map Prod.snd) t) := by
  induction pairs generalizing s t with
  | nil => exact .ok () h
  | cons pair pairs ih =>
    exact Effect.Paired.bind (h.savePlan (planOf pair.1 pair.2)) fun _ s' t' h' => ih h'

theorem Shadowed.enter (h : Shadowed host s t) (entry : Entry) :
    Shadowed host (enter host policy limits entry s) (enter host policy limits entry t) := by
  obtain ⟨hengine, hstore, hrecorder, hentries⟩ := h.same
  unfold Paper.enter
  rw [← hengine, ← hentries]
  cases entry.judged host limits with
  | error e => exact h
  | ok decision =>
    dsimp only
    cases execute host policy decision entry.idempotencyKey entry.executedAt s.engine with
    | error e engine => exact ⟨⟨rfl, hstore, hrecorder, rfl⟩, h.keyed, h.ledger⟩
    | ok receipt engine => exact ⟨⟨rfl, hstore, hrecorder, rfl⟩, h.keyed, h.ledger⟩

variable (policy) in
/-- **A step in which no exit is rejected again at another time** does the same, but for the ledger, when the
rejected exits are passed over. -/
theorem Shadowed.step (hhost : Text.CollisionFree host.sha256) (hdigest : ∀ text, host.sha256 text ≠ "")
    (h : Shadowed host s t) {input : DeskInput} (hinput : RejectedOnce host limits s input) :
    Shadowed host ((desk host policy limits).step s input).1 ((deskOfOthers host policy limits).step t input).1 := by
  cases input with
  | enter entry => exact h.enter entry
  | register pairs => exact (h.register pairs).final
  | manage market accountId marks portfolio golds evaluatedAt =>
    refine Effect.Paired.final (Effect.paired_ofExcept h fun now hnow => ?_)
    have hactive : t.store.active market accountId = s.store.active market accountId := by rw [h.same.store]
    rw [Effect.bind_of_ok (x := (memoryLifecycle host policy limits).store.active market accountId) rfl,
      Effect.bind_of_ok (x := (memoryLifecycle host policy limits).store.active market accountId) rfl, hactive]
    have hknown := hinput now (by rw [hnow]; rfl)
    have hcall : InCall host limits marks portfolio golds now (s.store.active market accountId) s t :=
      ⟨h, fun plan hplan => h.filed hplan, hknown⟩
    refine (inStep_inCall.managePlans hdigest ?_ ?_ hcall).mono fun s' t' hcall' => hcall'.shadowed
    · exact fun plan hplan reason s' t' hcall' => hcall'.append_ordered hhost hplan reason
    · exact fun plan hplan reason hreason s' t' hcall' => hcall'.append_rejected hhost hplan hreason

variable (host policy limits) in
/-- **A rejected exit prevents no other exit.** With the durable ledger, whatever the store, the engine and the
recorder are and whatever else happens to them and to the ledger: every call of `manage` returns or raises what it
would if the plans whose exits are rejected were passed over, and leaves the same positions, plans and outcomes.
With the ledger in memory, the same is true of the desk in every run in which no exit is rejected again at
another time. -/
theorem rejected_exits_do_not_prevent (hhost : Text.CollisionFree host.sha256)
    (hdigest : ∀ text, host.sha256 text ≠ "") :
    (∀ (Ω : Type) (self : PaperPositionLifecycle Ω) (s : Ω) (run : List (ManagedInput Ω)),
      ((managed host self PostgresDecisionLedger.ledger).exec (s, {}) run).1 =
          ((managedOthers host self PostgresDecisionLedger.ledger).exec (s, {}) run).1 ∧
        (managed host self PostgresDecisionLedger.ledger).outputs (s, {}) run =
          (managedOthers host self PostgresDecisionLedger.ledger).outputs (s, {}) run) ∧
    ∀ run : List DeskInput, (desk host policy limits).Along (RejectedOnce host limits) .new run →
      SameButLedger ((desk host policy limits).exec .new run) ((deskOfOthers host policy limits).exec .new run) := by
  constructor
  · intro Ω self s run
    have hrun := Machine.simulation_along (C := fun _ _ => True) id
      (fun s t input h _ => managed_step hdigest self s t input h) (s := (s, {})) (t := (s, {})) rfl
      (Machine.along_of_forall (fun _ _ => trivial) _ : (managed host self PostgresDecisionLedger.ledger).Along _ _ run)
    rwa [List.map_id] at hrun
  · intro run hrun
    have hsim := Machine.simulation_along id (fun s t input (h : Shadowed host s t) hinput =>
      ⟨h.step policy hhost hdigest hinput, rfl⟩) (shadowed_new host) hrun
    rw [List.map_id] at hsim
    exact hsim.1.same

end InMemory

/-! ### An exit that is rejected twice -/

namespace RejectedSample

open Risk.Sample ExitSample

/-- The same sale in another symbol. -/
def other : Entry :=
  { ExitSample.entry with
    allocation :=
      { ExitSample.allocation with
        candidate := ⟨{ candidate with candidateId := "candidate-2", symbol := "TCS", goldSnapshotIds := ["gold-2"] },
          ⟨1 / 2, 1, 1, 1, 1, 0, 0, 0, 1⟩⟩ }
    idempotencyKey := "cycle-1:decision-2" }

/-- A minute later, a snapshot that has only the second position. -/
def first : PortfolioSnapshot :=
  ⟨"snapshot-2", "paper-1", 20000, 0, [⟨.nse, "paper-1", "TCS", -10, 100⟩], later, Amounts.equity_pos, by simp⟩

/-- Another minute later. -/
def second : PortfolioSnapshot :=
  ⟨"snapshot-3", "paper-1", 20000, 0, [⟨.nse, "paper-1", "TCS", -10, 106⟩], noon + seconds 120, Amounts.equity_pos, by simp⟩

/-- The texts that the run hashes besides those of the first entry, with their SHA-256 digests. -/
def digests : List (String × String) :=
  let strategy := "ccf01d6774b2a296012e6bd2bfcb848003e45be167bd16ec9d2a3e1ffde41a5a"
  let intent := "6fa54fe109e1b7cbd02ac6dd9f2562d2ec793098b55dde71e5c71bf27efb48ab"
  let decision := "3fef93c6b7cfeec59ebda9f1ce58f66e44a8acdff454e7830bcf0d5579c992bd"
  let order := "f6942bced0d1ca24d012c59d5d003d7dd3ee7818400ad3acc1ba5313e1a6b739"
  let fill := "91293598bcacf4af4c1c94c51652a24bfcdc1293223cd44422646f1d0e059a6d"
  let position := "b8fffeaa69e0af42e3705542c1fd9df14dba3c5b231509ec93bada2e33afd515"
  let exit := "5b4b836c2e2768cc454d7427c51cd30dc98a066f084b659c8226223354475895"
  let exitDecision := "893b201b36db6b1660c12259403b5b75363a476e286b249179d35d70efae7bb5"
  let exitOrder := "2949507b76c793e07b571edbbb66ad740745f4cdc2c5d9a498755baebbbb14e3"
  let cycle := "e0e1d571dae3331b00be7888320455903fb4dd8ba14f5a0a2fcfd8fdbaeca22e"
  [("trade-intent|cycle-1|candidate-2", intent),
   (intent ++ "|snapshot-1|2026-08-15T12:00:00+00:00|" ++ limits.text Host.cpython, decision),
   ("paper-order|cycle-1:decision-2|" ++ decision, order),
   ("paper-fill|" ++ order ++ "|2026-08-15T12:00:00+00:00", fill),
   ("paper-position|nse|paper-1|TCS|" ++ fill, position),
   ("protective-exit|" ++ position ++ "|STOP", exit),
   ("protective-exit|" ++ exit ++ "|snapshot-3|2026-08-15T12:02:00+00:00", exitDecision),
   ("paper-order|exit:" ++ position ++ ":STOP|" ++ exitDecision, exitOrder),
   ("paper-fill|" ++ exitOrder ++ "|2026-08-15T12:02:00+00:00",
      "6c2d26841982686cefeecc0651c3378654ee56b662eb0c17ad350d0da7924e68"),
   ("outcome|" ++ position,
      "ddf70cae618f3fe4e596c6314b2aaebc4ad47b6c868299c17ad8e8e5f91e62e0"),
   ("exit-cycle|" ++ position ++ "|STOP", cycle),
   (cycle ++ "|nse|TCS|5m|position_management|ordered|PAPER_STOP_EXIT|candidate-2|" ++ strategy,
      "ae3b1edf9dbe16c7fd927232605088c0e661e68bb3f3e8a14c543f5292da4591"),
   ("protective-exit|94a757114478232147eb83b88bf47e213e69a0d07dd75061aa0546c903f096f4|snapshot-3|2026-08-15T12:02:00+00:00",
      "8d4caeb548d933e1d5a8fcd3e7e271e18b379e3b3630db90e6d8b4782f28e785"),
   ("d16f9f163f72cdae2b1687dc86e91b36f43c088889f1b5722b8057f51c9edaf6|nse|RELIANCE|5m|position_management|rejected|EXIT_RISK_REJECTED|candidate-1|" ++ strategy,
      "fafc54c323278e53b3e02dfcec36426b3a77a07e09d0efae64e7e363f0709983")]

set_option maxRecDepth 2000 in
/-- The characters of the table. -/
def spelling : Text.Spelling digests := by
  repeat' first
    | with_reducible exact limitsSpelled
    | exact Text.Spelled.ofList _
    | apply Text.Spelled.append
    | apply Text.Spelling.cons
    | exact Text.Spelling.nil

theorem hexdigest_digests : ∀ e ∈ digests, Sha256.hexdigest e.1 = e.2 := by
  apply Sha256.hexdigest_of_spelling spelling
  -- One text at a time, so that each evaluation is small.
  repeat' first | exact List.forall_mem_nil _ | refine List.forall_mem_cons.mpr ⟨?_, ?_⟩
  all_goals decide +kernel

/-- The runtime on the run. -/
def host : Host := Host.recorded (ExitSample.digests ++ digests)

theorem host_eq : host = Host.spelled (ExitSample.spelling.append spelling).chars := Host.spelled_eq _

/-- The desk after the two entries. -/
def entered : Desk := (desk host free limits).exec .new [.enter ExitSample.entry, .enter other]

/-- Both entries are registered; then the first passes its stop, and a minute later the second one too. -/
def run : List DeskInput :=
  [.enter ExitSample.entry, .enter other, .register entered.entries,
   .manage .nse "paper-1" ((Dict.empty.set "RELIANCE" 106).set "TCS" 100) first .empty (.aware later),
   .manage .nse "paper-1" ((Dict.empty.set "RELIANCE" 106).set "TCS" 106) second .empty
     (.aware (noon + seconds 120))]

/-- The entries, and then only the second of the two calls. -/
def once : List DeskInput :=
  [.enter ExitSample.entry, .enter other, .register entered.entries,
   .manage .nse "paper-1" ((Dict.empty.set "RELIANCE" 106).set "TCS" 106) second .empty
     (.aware (noon + seconds 120))]

end RejectedSample

/-- The exit of the first position is rejected, and the second position is closed in the same call. -/
theorem rejected_once :
    SameButLedger ((desk RejectedSample.host ExitSample.free Risk.Sample.limits).exec .new RejectedSample.once)
        ((deskOfOthers RejectedSample.host ExitSample.free Risk.Sample.limits).exec .new RejectedSample.once) ∧
      ((desk RejectedSample.host ExitSample.free Risk.Sample.limits).exec .new
        RejectedSample.once).store.outcomes.values.map Outcome.symbol = ["TCS"] := by
  have hhost : Text.CollisionFree RejectedSample.host.sha256 :=
    Host.recorded_collisionFree ((ExitSample.spelling.append RejectedSample.spelling).nodup (by decide +kernel))
      (List.forall_mem_append.mpr ⟨ExitSample.hexdigest_digests, RejectedSample.hexdigest_digests⟩)
  have hdigest : ∀ text, RejectedSample.host.sha256 text ≠ "" := Text.recorded_ne_empty (by decide +kernel)
  -- Both in one evaluation, which makes the run once.
  have hrun : (desk RejectedSample.host ExitSample.free Risk.Sample.limits).Along
        (RejectedOnce RejectedSample.host Risk.Sample.limits) .new RejectedSample.once ∧
      ((desk RejectedSample.host ExitSample.free Risk.Sample.limits).exec .new
        RejectedSample.once).store.outcomes.values.map Outcome.symbol = ["TCS"] := by
    simp only [RejectedSample.once, RejectedSample.entered, RejectedSample.host_eq]
    decide +kernel
  obtain ⟨honce, houtcome⟩ := hrun
  exact ⟨(rejected_exits_do_not_prevent RejectedSample.host ExitSample.free Risk.Sample.limits hhost hdigest).2
    RejectedSample.once honce, houtcome⟩

/-- The exit of the first position is rejected twice. The second call raises there, and the second position, whose stop
is passed, stays open. Without the first plan it would be closed. -/
theorem rejected_again :
    ((desk RejectedSample.host ExitSample.free Risk.Sample.limits).exec .new
        RejectedSample.run).store.outcomes.values.map Outcome.symbol = [] ∧
      ((deskOfOthers RejectedSample.host ExitSample.free Risk.Sample.limits).exec .new
        RejectedSample.run).store.outcomes.values.map Outcome.symbol = ["TCS"] ∧
      ¬ ∀ run : List DeskInput,
        SameButLedger ((desk RejectedSample.host ExitSample.free Risk.Sample.limits).exec .new run)
          ((deskOfOthers RejectedSample.host ExitSample.free Risk.Sample.limits).exec .new run) := by
  have hruns : ((desk RejectedSample.host ExitSample.free Risk.Sample.limits).exec .new
        RejectedSample.run).store.outcomes.values.map Outcome.symbol = [] ∧
      ((deskOfOthers RejectedSample.host ExitSample.free Risk.Sample.limits).exec .new
        RejectedSample.run).store.outcomes.values.map Outcome.symbol = ["TCS"] := by
    simp only [RejectedSample.run, RejectedSample.entered, RejectedSample.host_eq]
    decide +kernel
  obtain ⟨hdesk, hothers⟩ := hruns
  refine ⟨hdesk, hothers, fun h => ?_⟩
  rw [(h RejectedSample.run).store, hothers] at hdesk
  cases hdesk

end NanoDelta.Paper
