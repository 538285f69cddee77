import NanoDelta.Orchestration.Provenance
import NanoDelta.Runtime.PaperWorker

/-!
# What an attempt does to the ledger

An attempt at a cycle, taken apart: which of its transactions leave the orders and the
positions alone, what its calls of the paper engine add, what its protective exits close,
and which candidates its batch enters for.

* `processOne_ends`: an attempt adds at most one entry order for a candidate, only for
  candidates of its own rows, and only if it claimed the cycle and did not find the symbol
  held.
-/

namespace NanoDelta.Runtime

open Library Strategies Decisions Risk Outcomes Paper Orchestration Postgres

/-! ### What an attempt leaves alone -/

/-- What the entry orders and the open positions depend on. -/
structure Core where
  orders : List OrderRow
  decisions : List DecisionRow
  fills : List FillRow
  positions : List PositionRow
  orderPositions : List OrderPositionRow
  engine : PaperExecutionEngine
  outcomes : OutcomeRecorder

/-- The core of a worker. -/
def Worker.core (s : Worker) : Core :=
  ⟨s.paper.orders, s.paper.decisions, s.paper.fills, s.paper.positions, s.paper.orderPositions, s.engine, s.outcomes⟩

section Keeps

variable {host : Host} {account : String} {settings : Settings} {outage : Outage}

theorem keeps_transaction {α : Type} {body : Worker → Except PyError (α × Worker)}
    (h : ∀ s a s', body s = .ok (a, s') → s'.core = s.core) : Effect.Keeps Worker.core (transaction outage body) := by
  intro s
  unfold transaction
  cases outage s.transactions 0 with
  | some e => rfl
  | none =>
    simp only
    split
    · rename_i a s' hbody
      have hcore := h _ a s' hbody
      exact hcore
    · rfl

theorem map_eq_ok {α β : Type} {x : Except PyError α} {f : α → β} {b : β} (h : x.map f = .ok b) :
    ∃ a, x = .ok a ∧ f a = b := by
  cases x with
  | error e => cases h
  | ok a =>
    cases h
    exact ⟨a, rfl, rfl⟩

theorem transaction_ok {α : Type} {body : Worker → Except PyError (α × Worker)} {s s' : Worker} {a : α}
    (h : transaction outage body s = .ok a s') : body { s with transactions := s.transactions + 1 } = .ok (a, s') := by
  unfold transaction at h
  cases hfault : outage s.transactions 0 with
  | some e => simp [hfault] at h
  | none =>
    simp only [hfault] at h
    split at h
    · rename_i a' s₁ hbody
      cases h
      exact hbody
    · cases h

theorem keeps_readPaper {α : Type} (query : Database → Except PyError α) :
    Effect.Keeps Worker.core (readPaper outage query) := by
  refine keeps_transaction fun s a s' h => ?_
  obtain ⟨b, -, hb⟩ := map_eq_ok h
  cases hb
  rfl

theorem readPaper_ok {α : Type} {query : Database → Except PyError α} {s s' : Worker} {a : α}
    (h : readPaper outage query s = .ok a s') : query s.paper = .ok a := by
  obtain ⟨b, hb, he⟩ := map_eq_ok (transaction_ok h)
  cases he
  exact hb

/-- A write of the paper tables that leaves the tables of the ledger. -/
theorem keeps_writePaper {α : Type} {update : Worker → Except PyError (α × Database)}
    (h : ∀ s a db, update s = .ok (a, db) → ∃ outcomes exitPlans, db = { s.paper with outcomes, exitPlans }) :
    Effect.Keeps Worker.core (writePaper outage update) := by
  refine keeps_transaction fun s a s' hbody => ?_
  obtain ⟨⟨a', db⟩, hupdate, hs'⟩ := map_eq_ok hbody
  obtain ⟨outcomes, exitPlans, rfl⟩ := h s a' db hupdate
  cases hs'
  rfl

theorem keeps_onPlans {update : Database → Except PyError Database}
    (h : ∀ db db', update db = .ok db' → ∃ outcomes exitPlans, db' = { db with outcomes, exitPlans }) :
    Effect.Keeps Worker.core (onPlans outage update) := by
  refine keeps_writePaper fun s a db hupdate => ?_
  obtain ⟨db', hdb', he⟩ := map_eq_ok hupdate
  obtain rfl : db' = db := (Prod.mk.inj he).2
  exact h s.paper db' hdb'

theorem keeps_onCycles {α : Type} (x : List SessionCycleRow → Except PyError (α × List SessionCycleRow)) :
    Effect.Keeps Worker.core (onCycles outage x) := by
  refine keeps_transaction fun s a s' h => ?_
  obtain ⟨b, -, hb⟩ := map_eq_ok h
  cases hb
  rfl

theorem keeps_onControl (x : EStateM PyError ControlTables Unit) : Effect.Keeps Worker.core (onControl outage x) := by
  refine keeps_transaction fun s a s' h => ?_
  obtain ⟨b, -, hb⟩ := map_eq_ok h
  cases hb
  rfl

theorem ledgerKeeps : LedgerKeeps Worker.core (decisionLedger outage) :=
  ⟨fun decision => keeps_onControl (PostgresDecisionLedger.append decision),
    fun candidate decision => keeps_onControl (PostgresDecisionLedger.appendCandidate candidate decision)⟩

theorem insertPlan_ok {row : ExitPlanRow} {db db' : Database} (h : PostgresLifecycleStore.insertPlan row db = .ok db') :
    ∃ exitPlans, db' = { db with exitPlans } := by
  obtain ⟨exitPlans, -, h⟩ := Effect.except_bind_eq_ok.mp h
  cases h
  exact ⟨exitPlans, rfl⟩

theorem keeps_savePlan (plan : ExitPlan) : Effect.Keeps Worker.core ((lifecycleStore host outage).savePlan plan) := by
  refine keeps_onPlans fun db db' h => ?_
  obtain ⟨row, -, h⟩ := Effect.except_bind_eq_ok.mp h
  obtain ⟨exitPlans, rfl⟩ := insertPlan_ok h
  exact ⟨db.outcomes, exitPlans, rfl⟩

theorem keeps_saveOutcome (outcome : Outcome) (reason : ExitReason) :
    Effect.Keeps Worker.core ((lifecycleStore host outage).saveOutcome outcome reason) := by
  refine keeps_onPlans fun db db' h => ?_
  obtain ⟨outcomes, -, h⟩ := Effect.except_bind_eq_ok.mp h
  cases h
  exact ⟨outcomes, _, rfl⟩

theorem keeps_active (market : Market) (accountId : String) :
    Effect.Keeps Worker.core ((lifecycleStore host outage).active market accountId) := by
  refine (keeps_onPlans fun db db' h => ?_).bind fun _ => keeps_readPaper _
  cases h
  exact ⟨db.outcomes, _, rfl⟩

theorem keeps_recordExit {plan : ExitPlan} {reason : ExitReason} {t : Instant} {status : DecisionStatus}
    {code : String} : Effect.Keeps Worker.core (recordExit host (lifecycle host settings outage) plan reason t status code) :=
  (Effect.keeps_ofExcept _).bind fun decision => ledgerKeeps.append decision

theorem keeps_register (allocations : List PortfolioAllocation) (receipts : List ExecutionReceipt) :
    Effect.Keeps Worker.core ((lifecycle host settings outage).register allocations receipts) := by
  unfold PaperPositionLifecycle.register
  induction allocations generalizing receipts with
  | nil =>
    cases receipts with
    | nil => exact Effect.keeps_pure _
    | cons r rs => exact Effect.keeps_throw _
  | cons a as ih =>
    cases receipts with
    | nil => exact Effect.keeps_throw _
    | cons r rs => exact (keeps_savePlan _).bind fun _ => ih rs

theorem keeps_reconcileExitPlans (token accountId : String) :
    Effect.Keeps Worker.core ((sessionStore settings outage token).reconcileExitPlans accountId) := by
  show Effect.Keeps Worker.core (writePaper outage fun s =>
    PostgresPaperSessionStore.reconcileExitPlans accountId s.control s.paper)
  refine keeps_writePaper fun s recovered paper h => ?_
  obtain ⟨plans, -, h₁⟩ := Effect.except_bind_eq_ok.mp h
  obtain ⟨db, hfold, h₂⟩ := Effect.except_bind_eq_ok.mp h₁
  cases h₂
  have hloop : ∀ (plans : List ExitPlanRow) (db db' : Database),
      plans.foldlM (fun db row => PostgresLifecycleStore.insertPlan row db) db = .ok db' →
      ∃ exitPlans, db' = { db with exitPlans } := by
    intro plans
    induction plans with
    | nil =>
      intro db db' h
      cases h
      exact ⟨db.exitPlans, rfl⟩
    | cons row plans ih =>
      intro db db' h
      rw [List.foldlM_cons] at h
      obtain ⟨db₁, h₁, h₂⟩ := Effect.except_bind_eq_ok.mp h
      obtain ⟨exitPlans, rfl⟩ := insertPlan_ok h₁
      obtain ⟨exitPlans', rfl⟩ := ih _ _ h₂
      exact ⟨exitPlans', rfl⟩
  obtain ⟨exitPlans, rfl⟩ := hloop plans s.paper paper hfold
  exact ⟨s.paper.outcomes, exitPlans, rfl⟩

theorem keeps_complete (token : String) (claim : PaperSessionClaim) (result : PaperDecisionResult) (t : Instant) :
    Effect.Keeps Worker.core ((sessionStore settings outage token).complete claim result t) :=
  keeps_onCycles fun rows => (PostgresPaperSessionStore.complete claim result rows).map fun rows => ((), rows)

theorem keeps_fail (token : String) (claim : PaperSessionClaim) (t : Instant) (errorType : String) :
    Effect.Keeps Worker.core ((sessionStore settings outage token).fail claim t errorType) :=
  keeps_onCycles fun rows => .ok ((), PostgresPaperSessionStore.fail claim errorType rows)

end Keeps

/-! ### What an attempt keeps -/

section Sound

variable {host : Host} {account : String} {settings : Settings} {outage : Outage} {base : List ExecutionReceipt}

/-- The recorded outcomes are in the symbols that their positions tell. -/
def RecorderSound (host : Host) (account : String) (outcomes : OutcomeRecorder) : Prop :=
  ∀ positionId outcome, outcomes.get? positionId = some outcome → Named host account outcome.symbol positionId

/-- The tables and the memory of a worker are sound, and the ledger extends `base`. -/
def Worker.Sound (host : Host) (account : String) (base : List ExecutionReceipt) (s : Worker) : Prop :=
  RecorderSound host account s.outcomes ∧
    ∃ more, LedgerSound host account s.paper (base ++ more) ∧ CacheSound host account s.engine (base ++ more)

/-- No candidate has more entry orders in `db'` than in `db`. -/
def NoMoreEntries (db db' : Database) : Prop :=
  ∀ candidateId, (entryOrders db' candidateId).length ≤ (entryOrders db candidateId).length

theorem NoMoreEntries.trans {db₁ db₂ db₃ : Database} (h : NoMoreEntries db₁ db₂) (h' : NoMoreEntries db₂ db₃) :
    NoMoreEntries db₁ db₃ := fun candidateId => (h' candidateId).trans (h candidateId)

section Core

variable {s s' : Worker} (h : s'.core = s.core)

include h

theorem Worker.Sound.of_core (hs : s.Sound host account base) : s'.Sound host account base := by
  have horders : s'.paper.orders = s.paper.orders := congrArg Core.orders h
  have hdecisions : s'.paper.decisions = s.paper.decisions := congrArg Core.decisions h
  have hfills : s'.paper.fills = s.paper.fills := congrArg Core.fills h
  have hpositions : s'.paper.positions = s.paper.positions := congrArg Core.positions h
  have hsnapshots : s'.paper.orderPositions = s.paper.orderPositions := congrArg Core.orderPositions h
  have hengine : s'.engine = s.engine := congrArg Core.engine h
  have houtcomes : s'.outcomes = s.outcomes := congrArg Core.outcomes h
  obtain ⟨hrecorder, more, hl, hc⟩ := hs
  refine ⟨houtcomes ▸ hrecorder, more, ⟨⟨?_, ?_, ?_, hl.files.keys, hl.files.orderIds, hl.files.filled,
    hl.files.keyed⟩, ?_, ?_, ?_, hl.receipts⟩, hengine ▸ hc⟩
  · rw [horders]; exact hl.files.orders
  · rw [hfills]; exact hl.files.fills
  · rw [hsnapshots]; exact hl.files.orderPositions
  · rw [horders, hdecisions]; exact hl.decided
  · rw [hdecisions]; exact hl.written
  · rw [hpositions]; exact hl.rows

theorem entryOrders_of_core (candidateId : String) : entryOrders s'.paper candidateId = entryOrders s.paper candidateId := by
  have horders : s'.paper.orders = s.paper.orders := congrArg Core.orders h
  have hdecisions : s'.paper.decisions = s.paper.decisions := congrArg Core.decisions h
  unfold entryOrders
  rw [horders, hdecisions]

theorem noMoreEntries_of_core : NoMoreEntries s.paper s'.paper := fun candidateId => by
  rw [entryOrders_of_core h candidateId]

theorem holds_of_core (symbol : String) : Holds account symbol s'.paper ↔ Holds account symbol s.paper := by
  have hpositions : s'.paper.positions = s.paper.positions := congrArg Core.positions h
  unfold Holds
  rw [hpositions]

end Core

/-! ### Calls of the paper engine -/

/-- A call of the engine: it raises and changes nothing, or it returns. -/
theorem onEngine_ends {α : Type} {call : Faults → EStateM PyError Session α} {s : Worker} {Q : α → Worker → Prop}
    (hok : ∀ a t, call (outage s.transactions) (Store.session ⟨s.paper, s.engine⟩) = .ok a t →
      Q a { s with paper := t.committed, engine := t.memory, transactions := s.transactions + 1 })
    (herror : ∀ e t, call (outage s.transactions) (Store.session ⟨s.paper, s.engine⟩) = .error e t →
      t.store = ⟨s.paper, s.engine⟩) :
    Effect.Ends (onEngine outage call) s Q fun _ s' => s'.core = s.core := by
  unfold Effect.Ends onEngine Effect.focus
  simp only
  cases h : call (outage s.transactions) (Store.session ⟨s.paper, s.engine⟩) with
  | ok a t => exact hok a t h
  | error e t =>
    have hstore := herror e t h
    have hpaper : t.committed = s.paper := congrArg Store.database hstore
    have hengine : t.memory = s.engine := congrArg Store.memory hstore
    simp only [Worker.core, hpaper, hengine]

/-- `execute` of the engine, for a proper member. -/
theorem execute_ends (hhost : Digests host) {policy : ExecutionPolicy} {key : String} {decision : RiskDecision}
    (hm : Proper host account (key, decision)) (executedAt : DateTime) {s : Worker} (hs : s.Sound host account base) :
    Effect.Ends (onEngine outage fun faults => Postgres.execute host policy faults decision key executedAt) s
      (fun r s' => s'.Sound host account base ∧ Postgres.Traded account [(key, decision)] s.paper s'.paper ∧
        Named host account r.position.symbol r.position.positionId ∧
        (s'.paper = s.paper ∨ r.position.symbol = decision.intent.symbol))
      fun _ s' => s'.core = s.core := by
  obtain ⟨hrecorder, more, hl, hc⟩ := hs
  refine onEngine_ends ?_ fun e t h => transact_error (keeps_executeOne decision key executedAt) h
  intro r t ht
  obtain ⟨s₁, s₂, hbody, hdb₁, hmem₁, hdb₂, hmem₂⟩ := transact_ok ht
  replace hdb₁ : s₁.connection.database = s.paper := hdb₁
  replace hmem₁ : s₁.memory = s.engine := hmem₁
  obtain ⟨more', hl', hc', htraded, hr, hsymbol⟩ := executeOne_sound hhost hm (hdb₁ ▸ hl) (hmem₁ ▸ hc) hbody
  rw [List.append_assoc] at hl' hc' hr
  rw [hdb₁, ← hdb₂] at htraded hsymbol
  refine ⟨⟨hrecorder, more ++ more', ?_, ?_⟩, htraded, hl'.receipts r hr, hsymbol⟩
  · rw [hdb₂]; exact hl'
  · rw [hmem₂]; exact hc'

/-- `execute_batch` of the engine, for proper members. -/
theorem executeBatch_ends (hhost : Digests host) {policy : ExecutionPolicy} {decisions : List RiskDecision}
    {batchId : String} (hms : ∀ m ∈ Paper.members batchId decisions, Proper host account m) (executedAt : DateTime)
    {s : Worker} (hs : s.Sound host account base) :
    Effect.Ends (onEngine outage fun faults => Postgres.executeBatch host policy faults decisions batchId executedAt) s
      (fun _ s' => s'.Sound host account base ∧
        Postgres.Traded account (Paper.members batchId decisions) s.paper s'.paper ∧
        ((Paper.members batchId decisions).map Prod.fst).Nodup)
      fun _ s' => s'.core = s.core := by
  obtain ⟨hrecorder, more, hl, hc⟩ := hs
  refine onEngine_ends ?_ fun e t h => run_error (show Postgres.run host policy (outage s.transactions)
    (.executeBatch decisions batchId executedAt) (Store.session ⟨s.paper, s.engine⟩) = .error e t from h)
  intro rs t ht
  have hrun : Postgres.run host policy (outage s.transactions) (.executeBatch decisions batchId executedAt)
      (Store.session ⟨s.paper, s.engine⟩) = .ok rs t := ht
  obtain ⟨-, -, hnodup⟩ := admitted_of_run hrun
  obtain ⟨executedAt', s₁, s₂, hloop, hdb₁, hmem₁, hdb₂, hmem₂⟩ := run_ok hrun
  replace hdb₁ : s₁.connection.database = s.paper := hdb₁
  replace hmem₁ : s₁.memory = s.engine := hmem₁
  obtain ⟨more', hl', hc', htraded⟩ := each_sound hhost hms (hdb₁ ▸ hl) (hmem₁ ▸ hc) hloop
  rw [List.append_assoc] at hl' hc'
  rw [hdb₁, ← hdb₂] at htraded
  refine ⟨⟨hrecorder, more ++ more', ?_, ?_⟩, htraded, hnodup⟩
  · rw [hdb₂]; exact hl'
  · rw [hmem₂]; exact hc'

/-! ### Protective exits -/

/-- What holds while positions are closed: nothing but exits was traded, and the positions in symbols that are
not among `symbols` are held as before. -/
structure Exited (host : Host) (account : String) (base : List ExecutionReceipt) (s₀ : Worker) (symbols : List String)
    (s : Worker) : Prop where
  sound : s.Sound host account base
  entries : NoMoreEntries s₀.paper s.paper
  holds : ∀ symbol ∉ symbols, (Holds account symbol s.paper ↔ Holds account symbol s₀.paper)

theorem Exited.of_core {s₀ s s' : Worker} {symbols : List String} (hs : Exited host account base s₀ symbols s)
    (h : s'.core = s.core) : Exited host account base s₀ symbols s' :=
  ⟨hs.sound.of_core h, hs.entries.trans (noMoreEntries_of_core h),
    fun symbol hsymbol => (holds_of_core h symbol).trans (hs.holds symbol hsymbol)⟩

theorem isEntry_exitKey (plan : ExitPlan) (reason : ExitReason) : isEntry (exitKey plan reason) = false := by
  have hexit : startsWith (exitKey plan reason) "exit:" = true := startsWith_exitKeyOf plan.positionId reason
  rw [isEntry, hexit]
  rfl

/-- The recorder stays sound, and what it returns is in the symbol that the position tells. -/
theorem record_ends (hhost : Digests host) {position : PaperPosition} {identity : StrategyIdentity} {capital : ℚ}
    {recordedAt : DateTime} {s : Worker} (hs : s.Sound host account base)
    (hposition : Named host account position.symbol position.positionId) :
    Effect.Ends ((lifecycle host settings outage).record position identity capital recordedAt) s
      (fun outcome s' => s'.Sound host account base ∧ s'.paper = s.paper ∧ outcome.symbol = position.symbol)
      fun _ s' => s' = s := by
  show Effect.Ends (Effect.focus Worker.outcomes (fun s outcomes => { s with outcomes })
    (Outcomes.record host position identity capital recordedAt)) s _ _
  refine Effect.ends_of ?_ ?_
  · intro outcome s' h
    obtain ⟨t, ht, rfl⟩ := Effect.focus_eq_ok.mp h
    rcases record_ok ht with ⟨hget, rfl⟩ | ⟨hsymbol, rfl⟩
    · exact ⟨hs, rfl, Named.unique hhost (hs.1 _ _ hget) hposition⟩
    · refine ⟨⟨?_, hs.2⟩, rfl, hsymbol⟩
      intro positionId outcome' hget
      simp only [Dict.get?_set] at hget
      split at hget
      · rename_i he
        cases hget
        rw [he, hsymbol]
        exact hposition
      · exact hs.1 positionId outcome' hget
  · intro e s' h
    unfold Effect.focus at h
    split at h
    · cases h
    · rename_i t ht
      cases h
      rw [record_error ht]

/-- Closing the position of a plan. -/
theorem closePlan_ends (hhost : Digests host) {s₀ s : Worker} {symbols : List String}
    (hs : Exited host account base s₀ symbols s) {plan : ExitPlan} (hmarket : plan.market = .nse)
    (haccount : plan.accountId = account) (portfolio : PortfolioSnapshot) (golds : Dict String String) (t : Instant)
    (mark : ℚ) (reason : ExitReason) :
    Effect.Ends (closePlan host (lifecycle host settings outage) portfolio golds t plan mark reason) s
      (fun outcome s' => Exited host account base s₀ (symbols ++ outcome.toList.map Outcome.symbol) s')
      fun _ s' => s'.Sound host account base ∧ NoMoreEntries s₀.paper s'.paper := by
  have hraise : s.Sound host account base ∧ NoMoreEntries s₀.paper s.paper := ⟨hs.sound, hs.entries⟩
  refine Effect.Ends.bind (Effect.ends_ofExcept (fun intent hintent => ?_) fun _ => hraise)
  refine Effect.Ends.bind (Effect.ends_ofExcept (fun decision hdecision => ?_) fun _ => hraise)
  obtain ⟨hkey, -⟩ := exitIntent_ok hintent
  obtain ⟨hintent₁, hintent₂, hintent₃⟩ : intent.market = plan.market ∧ intent.accountId = plan.accountId ∧
      intent.symbol = plan.symbol := by
    simpa only [positionKey, Prod.mk.injEq] using hkey
  obtain ⟨hof, hid⟩ := evaluateExit_ok hdecision
  split
  · -- the exit is rejected
    refine Effect.Ends.bind ((keeps_recordExit.ends s).mono ?_ ?_)
    · intro _ s' h
      show Exited host account base s₀ (symbols ++ []) s'
      rw [List.append_nil]
      exact hs.of_core h.2
    · exact fun _ s' h => ⟨(hs.of_core h).sound, (hs.of_core h).entries⟩
  · have hm : Proper host account (exitKey plan reason, decision) :=
      ⟨by rw [hof, hintent₁, hmarket], by rw [hof, hintent₂, haccount],
        Or.inr ⟨isEntry_exitKey plan reason, _, _, _, hid⟩⟩
    refine Effect.Ends.bind ((execute_ends hhost hm (.aware t) hs.sound).mono ?_ ?_)
    · rintro r s₁ ⟨hsound₁, htraded, hnamed, hwrote⟩
      have hentries₁ : NoMoreEntries s₀.paper s₁.paper := by
        refine hs.entries.trans fun candidateId => (htraded.orders candidateId).trans ?_
        simp [entersFor, isEntry_exitKey]
      refine Effect.Ends.bind ((record_ends hhost hsound₁ hnamed).mono ?_ ?_)
      · rintro outcome s₂ ⟨hsound₂, hpaper₂, hsymbol⟩
        have hs₂ : Exited host account base s₀ (symbols ++ [outcome.symbol]) s₂ := by
          refine ⟨hsound₂, hpaper₂ ▸ hentries₁, ?_⟩
          intro symbol hout
          rw [hpaper₂]
          simp only [List.mem_append, List.mem_singleton, not_or] at hout
          rcases hwrote with hsame | hwrote
          · rw [hsame]
            exact hs.holds symbol hout.1
          · refine (htraded.holds symbol ?_).trans (hs.holds symbol hout.1)
            intro m hmem
            rw [List.mem_singleton.mp hmem]
            intro he
            exact hout.2 (by rw [hsymbol, hwrote, ← he])
        refine Effect.Ends.bind (((keeps_saveOutcome outcome reason).ends s₂).mono ?_ ?_)
        · rintro _ s₃ ⟨-, h₃⟩
          have hs₃ := hs₂.of_core h₃
          refine Effect.Ends.bind ((keeps_recordExit.ends s₃).mono ?_ ?_)
          · rintro _ s₄ ⟨-, h₄⟩
            exact hs₃.of_core h₄
          · exact fun _ s₄ h₄ => ⟨(hs₃.of_core h₄).sound, (hs₃.of_core h₄).entries⟩
        · exact fun _ s₃ h₃ => ⟨(hs₂.of_core h₃).sound, (hs₂.of_core h₃).entries⟩
      · rintro _ s₂ rfl
        exact ⟨hsound₁, hentries₁⟩
    · exact fun _ s₁ h => ⟨(hs.of_core h).sound, (hs.of_core h).entries⟩

/-- Managing the open positions closes some of them, and enters for no candidate. -/
theorem manage_ends (hhost : Digests host) {s₀ s : Worker} (hs : Exited host account base s₀ [] s)
    (marks : Dict String ℚ) (portfolio : PortfolioSnapshot) (golds : Dict String String) (t : Instant) :
    Effect.Ends ((lifecycle host settings outage).manage host .nse account marks portfolio golds (.aware t)) s
      (fun outcomes s' => Exited host account base s₀ (outcomes.map Outcome.symbol) s')
      fun _ s' => s'.Sound host account base ∧ NoMoreEntries s₀.paper s'.paper := by
  refine Effect.Ends.bind (Effect.ends_ofExcept (fun t' _ => ?_) fun _ => ⟨hs.sound, hs.entries⟩)
  refine Effect.Ends.bind (((keeps_active .nse account).ends s).mono ?_ ?_)
  · rintro plans s₁ ⟨hplans, hcore⟩
    obtain ⟨_, s₂, -, hload⟩ := Effect.bind_eq_ok.mp hplans
    have hof := PostgresLifecycleStore.loadActive_mem (readPaper_ok hload)
    refine Effect.ends_collect (I := fun outcomes s' => Exited host account base s₀ (outcomes.map Outcome.symbol) s')
      ?_ [] (hs.of_core hcore)
    intro plan hplan outcomes s₃ hs₃
    obtain ⟨hmarket, haccount⟩ := hof plan hplan
    have hskip : Effect.Ends (pure none : EStateM PyError Worker (Option Outcome)) s₃
        (fun outcome s' => Exited host account base s₀ ((outcomes ++ outcome.toList).map Outcome.symbol) s')
        fun _ s' => s'.Sound host account base ∧ NoMoreEntries s₀.paper s'.paper := by
      show Exited host account base s₀ ((outcomes ++ []).map Outcome.symbol) s₃
      rwa [List.append_nil]
    unfold managePlan
    split
    · exact hskip
    · split
      · exact hskip
      · refine (closePlan_ends hhost hs₃ hmarket haccount portfolio golds t' _ _).mono ?_ fun _ _ h => h
        intro outcome s₄ h₄
        rwa [List.map_append]
  · exact fun _ s₁ h => ⟨(hs.of_core h).sound, (hs.of_core h).entries⟩

/-- The snapshot has the positions that are held. -/
def Shows (account : String) (portfolio : PortfolioSnapshot) (db : Database) : Prop :=
  ∀ symbol, Holds account symbol db → (Market.nse, symbol) ∈ portfolio.positions.map fun p => (p.market, p.symbol)

/-- The snapshot of a worker. -/
theorem portfolio_ends (s : Worker) (marks : Dict String ℚ) (now : Instant) :
    Effect.Ends ((decisionService host account settings outage).portfolio .nse marks now) s
      (fun portfolio s' => s'.core = s.core ∧ Shows account portfolio s.paper) fun _ s' => s'.core = s.core := by
  refine ((keeps_readPaper _).ends s).mono ?_ fun _ _ h => h
  rintro portfolio s' ⟨hread, hcore⟩
  exact ⟨hcore, fun symbol => mem_of_buildPortfolioSnapshot (readPaper_ok hread)⟩

/-- The snapshot that a cycle trades against shows what is held after the exits. -/
theorem manageOpen_ends (hhost : Digests host) {s : Worker} (hs : s.Sound host account base) (marks : Dict String ℚ)
    (features : List FeatureRecord) (now : Instant) :
    Effect.Ends (manageOpen host (decisionService host account settings outage) .nse marks features now) s
      (fun r s' => Exited host account base s r.2 s' ∧ Shows account r.1 s'.paper)
      fun _ s' => s'.Sound host account base ∧ NoMoreEntries s.paper s'.paper := by
  have hexited : Exited host account base s [] s := ⟨hs, fun _ => le_refl _, fun _ _ => Iff.rfl⟩
  have hraise : ∀ {symbols : List String} {s₁ s₂ : Worker}, Exited host account base s symbols s₁ → s₂.core = s₁.core →
      s₂.Sound host account base ∧ NoMoreEntries s.paper s₂.paper :=
    fun h₁ h₂ => ⟨(h₁.of_core h₂).sound, (h₁.of_core h₂).entries⟩
  refine Effect.Ends.bind ((portfolio_ends s marks now).mono ?_ fun _ s₁ h => hraise hexited h)
  rintro portfolio s₁ ⟨hcore₁, hshows⟩
  refine Effect.Ends.bind ((manage_ends hhost (hexited.of_core hcore₁) marks portfolio _ now).mono ?_ fun _ _ h => h)
  intro outcomes s₂ hs₂
  cases outcomes with
  | nil => exact ⟨hs₂, fun symbol hheld => hshows symbol ((hs₂.holds symbol (by simp)).mp hheld)⟩
  | cons outcome outcomes =>
    refine Effect.Ends.bind ((portfolio_ends s₂ marks now).mono ?_ fun _ s₃ h => hraise hs₂ h)
    rintro portfolio' s₃ ⟨hcore₃, hshows'⟩
    exact ⟨hs₂.of_core hcore₃, fun symbol hheld => hshows' symbol ((holds_of_core hcore₃ symbol).mp hheld)⟩

/-! ### Entries -/

/-- The id of the candidate that a strategy proposes on a row. -/
def candidateIdOf (host : Host) (identity : StrategyIdentity) (feature : FeatureRecord) (action : AdvisoryAction) :
    String :=
  stableId host [identity.key host, feature.symbol, isoformat feature.eventTime.astimezone, action.value,
    feature.recordId]

/-- The candidate is one that a registered strategy proposes on a row, and the symbol of the row is not held. -/
def Enterable (host : Host) (account : String) (registry : StrategyRegistry) (features : List FeatureRecord)
    (db : Database) (candidateId : String) : Prop :=
  ∃ feature ∈ features, ∃ definition ∈ registry.definitions.values, ∃ action,
    candidateId = candidateIdOf host definition.identity feature action ∧ ¬ Holds account feature.symbol db

/-- What an attempt at rows did to the entry orders: at most one more for a candidate, and none for a
candidate that is not of its rows or whose symbol was held. -/
structure Entered (host : Host) (account : String) (registry : StrategyRegistry) (features : List FeatureRecord)
    (db db' : Database) : Prop where
  once : ∀ candidateId, (entryOrders db' candidateId).length ≤ (entryOrders db candidateId).length + 1
  other : ∀ candidateId, ¬ Enterable host account registry features db candidateId →
    (entryOrders db' candidateId).length ≤ (entryOrders db candidateId).length

/-- What holds after an attempt that began in `s₀`. -/
structure Attempted (host : Host) (account : String) (base : List ExecutionReceipt) (registry : StrategyRegistry)
    (features : List FeatureRecord) (s₀ s : Worker) : Prop where
  sound : s.Sound host account base
  entered : Entered host account registry features s₀.paper s.paper

section Attempted

variable {registry : StrategyRegistry} {features : List FeatureRecord} {s₀ s s' : Worker}

theorem attempted_of_noMoreEntries (hs : s.Sound host account base) (h : NoMoreEntries s₀.paper s.paper) :
    Attempted host account base registry features s₀ s :=
  ⟨hs, fun candidateId => (h candidateId).trans (Nat.le_add_right _ _), fun candidateId _ => h candidateId⟩

theorem Attempted.of_core (hs : Attempted host account base registry features s₀ s) (h : s'.core = s.core) :
    Attempted host account base registry features s₀ s' := by
  refine ⟨hs.sound.of_core h, fun candidateId => ?_, fun candidateId hother => ?_⟩
  · rw [entryOrders_of_core h]
    exact hs.entered.once candidateId
  · rw [entryOrders_of_core h]
    exact hs.entered.other candidateId hother

/-- What was done since `s₁` was done since `s₀`, if nothing was done between. -/
theorem Attempted.since_core {s₁ : Worker} (hs : Attempted host account base registry features s₁ s)
    (h : s₁.core = s₀.core) : Attempted host account base registry features s₀ s := by
  refine ⟨hs.sound, fun candidateId => ?_, fun candidateId hnot => ?_⟩
  · rw [← entryOrders_of_core h]
    exact hs.entered.once candidateId
  · rw [← entryOrders_of_core h]
    refine hs.entered.other candidateId ?_
    rintro ⟨feature, hfeature, definition, hdefinition, action, hid, hfree⟩
    exact hnot ⟨feature, hfeature, definition, hdefinition, action, hid,
      fun hheld => hfree ((holds_of_core h feature.symbol).mpr hheld)⟩

end Attempted

/-- What the batch executor makes of an allocation. -/
structure Judged (host : Host) (account cycleId : String) (portfolio : PortfolioSnapshot) (limits : RiskLimits)
    (t : Instant) (allocation : PortfolioAllocation) (decision : RiskDecision) : Prop where
  market : decision.intent.market = allocation.candidate.candidate.identity.market
  account : decision.intent.accountId = account
  candidate : decision.intent.candidateId = allocation.candidate.candidate.candidateId
  decisionId : decision.decisionId = stableId host
    [stableId host ["trade-intent", cycleId, allocation.candidate.candidate.candidateId], portfolio.snapshotId,
      isoformat t, limits.text host]

theorem judged_of_judge {Ω : Type} {batch : PaperBatchExecutor Ω} {cycleId : String} {portfolio : PortfolioSnapshot}
    {t : Instant} {allocation : PortfolioAllocation} {decision : RiskDecision} {s s' : Ω}
    (h : judge host batch cycleId account portfolio t allocation s = .ok decision s') :
    Judged host account cycleId portfolio batch.limits t allocation decision := by
  obtain ⟨approval, intent, hintent, hevaluate⟩ := judge_ok h
  obtain ⟨-, hid, hcandidate, hmarket, haccount⟩ := intentOf_ok hintent
  obtain ⟨_, -, hof, -⟩ := evaluate_ok hevaluate
  have hdecision := decisionId_of_evaluate hevaluate
  rw [hid] at hdecision
  exact ⟨hof ▸ hmarket, hof ▸ haccount, hof ▸ hcandidate, hdecision⟩

/-- The batch of a cycle, if the candidates of its allocations may be entered. -/
theorem batch_ends (hhost : Digests host) {s₀ s : Worker} (hs : s.Sound host account base)
    (hentries : NoMoreEntries s₀.paper s.paper) {features : List FeatureRecord} {result : PipelineResult}
    (hmarket : ∀ a ∈ result.allocations, a.candidate.candidate.identity.market = .nse)
    (henterable : ∀ a ∈ result.allocations,
      Enterable host account settings.registry features s₀.paper a.candidate.candidate.candidateId)
    (portfolio : PortfolioSnapshot) (t : Instant) :
    Effect.Ends ((decisionService host account settings outage).batch.execute host result account portfolio (.aware t))
      s (fun _ s' => Attempted host account base settings.registry features s₀ s')
      fun _ s' => Attempted host account base settings.registry features s₀ s' := by
  have hstart : Attempted host account base settings.registry features s₀ s := attempted_of_noMoreEntries hs hentries
  refine Effect.Ends.bind (Effect.ends_ofExcept (fun t' _ => ?_) fun _ => hstart)
  have hledger : LedgerKeeps Worker.core (decisionService host account settings outage).batch.ledger := ledgerKeeps
  refine Effect.Ends.bind (((Effect.Keeps.each (keeps_judge hledger result.cycleId account portfolio t')
    result.allocations).ends s).mono ?_ fun _ s₁ h => hstart.of_core h)
  rintro decisions s₁ ⟨heach, hcore₁⟩
  split
  · exact hstart.of_core hcore₁
  have hjudged := Effect.forall₂_of_each (R := Judged host account result.cycleId portfolio settings.limits t')
    (fun _ _ _ _ h => judged_of_judge h) heach
  have hfrom : ∀ m ∈ Paper.members result.cycleId decisions, ∃ a ∈ result.allocations,
      Judged host account result.cycleId portfolio settings.limits t' a m.2 ∧ m.1 = batchKey result.cycleId m.2 := by
    intro m hm
    obtain ⟨decision, hdecision, rfl⟩ := List.mem_map.mp hm
    obtain ⟨a, ha, h⟩ := Effect.exists_of_forall₂ hjudged hdecision
    exact ⟨a, ha, h, rfl⟩
  have hproper : ∀ m ∈ Paper.members result.cycleId decisions, Proper host account m := by
    intro m hm
    obtain ⟨a, ha, h, -⟩ := hfrom m hm
    obtain ⟨feature, -, definition, -, action, hid, -⟩ := henterable a ha
    refine ⟨h.market.trans (hmarket a ha), h.account, Or.inl ?_⟩
    rw [h.decisionId, h.candidate, hid]
    exact ⟨_, _, _, _, _, rfl, rfl⟩
  refine Effect.Ends.bind ((executeBatch_ends hhost hproper (.aware t') (hs.of_core hcore₁)).mono ?_
    fun _ s₂ h => (hstart.of_core hcore₁).of_core h)
  rintro receipts s₂ ⟨hs₂, htraded, hnodup⟩
  have hentered : Attempted host account base settings.registry features s₀ s₂ := by
    have hentries₁ := hentries.trans (noMoreEntries_of_core hcore₁)
    refine ⟨hs₂, fun candidateId => ?_, fun candidateId hother => ?_⟩
    · have hone : (Paper.members result.cycleId decisions).countP (entersFor candidateId) ≤ 1 := by
        refine countP_entersFor_le_one hnodup ?_ candidateId
        intro m hm m' hm' hsame
        obtain ⟨a, -, h, hkey⟩ := hfrom m hm
        obtain ⟨a', -, h', hkey'⟩ := hfrom m' hm'
        rw [h.candidate, h'.candidate] at hsame
        rw [hkey, hkey', batchKey, batchKey, h.decisionId, h'.decisionId, hsame]
      have horders := htraded.orders candidateId
      have hbefore := hentries₁ candidateId
      omega
    · have hnone : (Paper.members result.cycleId decisions).countP (entersFor candidateId) = 0 := by
        rw [List.countP_eq_zero]
        intro m hm henters
        obtain ⟨a, ha, h, -⟩ := hfrom m hm
        simp only [entersFor, Bool.and_eq_true, decide_eq_true_eq] at henters
        rw [← henters.2, h.candidate] at hother
        exact hother (henterable a ha)
      have horders := htraded.orders candidateId
      have hbefore := hentries₁ candidateId
      omega
  refine Effect.Ends.bind (((keeps_recordOrders hledger result.cycleId t' result.allocations receipts).ends s₂).mono
    ?_ fun _ s₃ h => hentered.of_core h)
  rintro _ s₃ ⟨-, h₃⟩
  exact hentered.of_core h₃

/-! ### A cycle -/

/-- The candidates of a run may be entered: each is of a row whose symbol was neither closed nor held. -/
theorem run_enterable {s₀ s s₁ s₂ : Worker} {features : List FeatureRecord} (hnse : ∀ f ∈ features, f.market = .nse)
    {exited : List String} (hs : Exited host account base s₀ exited s) {portfolio : PortfolioSnapshot}
    (hshows : Shows account portfolio s.paper) {contexts : List StrategyContext}
    (hcontexts : ∀ context ∈ contexts, ∃ feature ∈ features.filter fun f => f.symbol ∉ exited,
      MadeOf feature context)
    {preconditions : CyclePreconditions} {evaluatedAt : DateTime} {liveQuotes : Dict (Market × String) ℚ}
    {correlations : Dict (String × String) ℚ} {result : PipelineResult}
    (h : Orchestration.run host (decisionService host account settings outage).pipeline contexts preconditions
      evaluatedAt liveQuotes (portfolio.positions.map fun p => (p.market, p.symbol)) correlations s₁ = .ok result s₂) :
    ∀ a ∈ result.allocations, a.candidate.candidate.identity.market = .nse ∧
      Enterable host account settings.registry features s₀.paper a.candidate.candidate.candidateId := by
  intro a ha
  obtain ⟨hkey, context, hcontext, definition, hdefinition, hmarket, approvalId, signal, hcandidate⟩ :=
    run_provenance h a ha
  obtain ⟨feature, hfeature, hmade⟩ := hcontexts context hcontext
  simp only [List.mem_filter, decide_eq_true_eq] at hfeature
  have hnse' : definition.identity.market = .nse := by rw [hmarket, hmade.market, hnse feature hfeature.1]
  have hfree : ¬ Holds account feature.symbol s.paper := by
    intro hheld
    refine hkey ?_
    rw [ScoredCandidate.key, hcandidate]
    show (definition.identity.market, context.symbol) ∈ _
    rw [hnse', hmade.symbol]
    exact hshows feature.symbol hheld
  rw [hcandidate]
  refine ⟨hnse', feature, hfeature.1, definition, hdefinition, signal.action, ?_, ?_⟩
  · simp only [DeterministicCandidate.create, candidateIdOf, hmade.symbol, hmade.golds, hmade.eventTime,
      DateTime.astimezone]
    rfl
  · exact fun hheld => hfree ((hs.holds feature.symbol hfeature.2).mpr hheld)

/-- The last part of a cycle. -/
theorem trade_ends (hhost : Digests host) {s₀ s : Worker} {features : List FeatureRecord}
    (hnse : ∀ f ∈ features, f.market = .nse) {exited : List String} (hs : Exited host account base s₀ exited s)
    {portfolio : PortfolioSnapshot} (hshows : Shows account portfolio s.paper) {contexts : List StrategyContext}
    (hcontexts : ∀ context ∈ contexts, ∃ feature ∈ features.filter fun f => f.symbol ∉ exited,
      MadeOf feature context) (eligible : List FeatureRecord) (now : Instant) :
    Effect.Ends (trade host (decisionService host account settings outage) .nse features eligible contexts portfolio
      exited now) s (fun _ s' => Attempted host account base settings.registry features s₀ s')
      fun _ s' => Attempted host account base settings.registry features s₀ s' := by
  have hstart : Attempted host account base settings.registry features s₀ s :=
    attempted_of_noMoreEntries hs.sound hs.entries
  refine Effect.Ends.bind (Effect.ends_ofExcept (fun entrySessionOpen _ => ?_) fun _ => hstart)
  refine Effect.Ends.bind (Effect.ends_ofExcept (fun correlations _ => ?_) fun _ => hstart)
  have hledger : LedgerKeeps Worker.core (decisionService host account settings outage).pipeline.ledger := ledgerKeeps
  refine Effect.Ends.bind (((keeps_run hledger rfl contexts _ _ _ _ correlations).ends s).mono ?_
    fun _ s₁ h => hstart.of_core h)
  rintro result s₁ ⟨hrun, hcore₁⟩
  have henterable := run_enterable hnse hs hshows hcontexts hrun
  refine Effect.Ends.bind ((batch_ends hhost (hs.sound.of_core hcore₁)
    (hs.entries.trans (noMoreEntries_of_core hcore₁)) (fun a ha => (henterable a ha).1)
    (fun a ha => (henterable a ha).2) portfolio now).mono ?_ fun _ _ h => h)
  intro batch s₂ hs₂
  have hregister : Effect.Keeps Worker.core
      (registerExits (decisionService host account settings outage) result.allocations batch.receipts) := by
    cases batch.receipts with
    | nil => exact Effect.keeps_pure _
    | cons receipt receipts => exact keeps_register _ _
  refine Effect.Ends.bind ((hregister.ends s₂).mono ?_ fun _ s₃ h => hs₂.of_core h)
  exact fun _ s₃ h => hs₂.of_core h.2

/-- A cycle. -/
theorem processIn_ends (hhost : Digests host) {s : Worker} (hs : s.Sound host account base)
    {features : List FeatureRecord} (hnse : ∀ f ∈ features, f.market = .nse) (now : Instant) :
    Effect.Ends (processIn host (decisionService host account settings outage) .nse features now) s
      (fun _ s' => Attempted host account base settings.registry features s s')
      fun _ s' => Attempted host account base settings.registry features s s' := by
  have hstart : Attempted host account base settings.registry features s s :=
    attempted_of_noMoreEntries hs fun _ => le_refl _
  refine Effect.Ends.bind (Effect.ends_ofExcept (fun marks _ => ?_) fun _ => hstart)
  refine Effect.Ends.bind ((manageOpen_ends hhost hs marks features now).mono ?_
    fun _ s₁ h => attempted_of_noMoreEntries h.1 h.2)
  rintro ⟨portfolio, exited⟩ s₁ ⟨hexited, hshows⟩
  have hmanaged : Attempted host account base settings.registry features s s₁ :=
    attempted_of_noMoreEntries hexited.sound hexited.entries
  refine Effect.Ends.bind (((keeps_contextsOf _).ends s₁).mono ?_ fun _ s₂ h => hmanaged.of_core h)
  rintro contexts s₂ ⟨hcontexts, hcore₂⟩
  cases contexts with
  | nil => exact hmanaged.of_core hcore₂
  | cons context contexts =>
    refine trade_ends hhost hnse (hexited.of_core hcore₂) ?_ (contextsOf_mem hcontexts) _ now
    exact fun symbol hheld => hshows symbol ((holds_of_core hcore₂ symbol).mp hheld)

/-! ### An attempt -/

/-- The cycle can be claimed at the time: it is new, or it is neither completed nor under a lease. -/
def Claimable (rows : List SessionCycleRow) (sessionCycleId : String) (t : Instant) : Prop :=
  ∀ row ∈ rows.find? fun r => r.sessionCycleId = sessionCycleId, row.state ≠ .completed ∧ ¬ row.leased t

instance (rows : List SessionCycleRow) (sessionCycleId : String) (t : Instant) :
    Decidable (Claimable rows sessionCycleId t) := by
  unfold Claimable; infer_instance

/-- What was claimed could be claimed. -/
theorem claimable_of_claim {lease : ℤ} {token sessionCycleId : String} {featureRecordIds : List String}
    {eventTime t : Instant} {rows rows' : List SessionCycleRow} {claim : PaperSessionClaim}
    (h : PostgresPaperSessionStore.claim lease token sessionCycleId featureRecordIds eventTime t rows =
      .ok (claim, rows')) (hstate : claim.state = .claimed) : Claimable rows sessionCycleId t := by
  intro row hrow
  unfold PostgresPaperSessionStore.claim at h
  have htaken : ∃ r ∈ rows, r.sessionCycleId = sessionCycleId :=
    ⟨row, List.mem_of_find?_eq_some hrow, by simpa using List.find?_some hrow⟩
  simp only [Table.insertNew, htaken, if_true] at h
  rw [Option.mem_def] at hrow
  simp only [hrow] at h
  unfold PostgresPaperSessionStore.claimRow at h
  split_ifs at h with hcompleted hleased
  · obtain ⟨prior, -, h₁⟩ := Effect.except_bind_eq_ok.mp h
    cases h₁
    cases hstate
  · cases h
    cases hstate
  · exact ⟨hcompleted, hleased⟩

/-- The `except` block changes nothing in the ledger. -/
theorem recover_keeps (token : String) (clock : SessionClock) (claim : PaperSessionClaim) (e : PyError) :
    Effect.Keeps Worker.core (recover (paperSession host account settings outage token) clock claim e) := by
  unfold recover
  split
  · exact Effect.keeps_throw _
  · exact (Effect.keeps_ofExcept _).bind fun failedAt =>
      (keeps_fail token claim failedAt e.typeName).bind fun _ => Effect.keeps_throw _

/-- The `try` block of an attempt. -/
theorem work_ends (hhost : Digests host) {s : Worker} (hs : s.Sound host account base)
    {features : List FeatureRecord} (hnse : ∀ f ∈ features, f.market = .nse) (token : String) (clock : SessionClock)
    (claim : PaperSessionClaim) :
    Effect.Ends (work host (paperSession host account settings outage token) clock features claim) s
      (fun _ s' => Attempted host account base settings.registry features s s')
      fun _ s' => Attempted host account base settings.registry features s s' := by
  have hstart : Attempted host account base settings.registry features s s :=
    attempted_of_noMoreEntries hs fun _ => le_refl _
  refine Effect.Ends.bind (((keeps_reconcileExitPlans token account).ends s).mono ?_ fun _ s₁ h => hstart.of_core h)
  rintro _ s₁ ⟨-, hcore₁⟩
  have hprocess : Effect.Ends ((decisionService host account settings outage).process host features
      (.aware claim.evaluatedAt)) s₁ (fun _ s' => Attempted host account base settings.registry features s₁ s')
      fun _ s' => Attempted host account base settings.registry features s₁ s' := by
    have hbegin : Attempted host account base settings.registry features s₁ s₁ :=
      attempted_of_noMoreEntries (hs.of_core hcore₁) fun _ => le_refl _
    cases features with
    | nil => exact hbegin
    | cons feature rest =>
      refine Effect.Ends.bind (Effect.ends_ofExcept (fun now _ => ?_) fun _ => hbegin)
      split
      · exact hbegin
      · rw [hnse feature (List.mem_cons_self ..)]
        exact Effect.Ends.bind ((processIn_ends hhost (hs.of_core hcore₁) hnse now).mono (fun _ _ h => h)
          fun _ _ h => h)
  refine Effect.Ends.bind (hprocess.mono ?_ fun _ _ h => h.since_core hcore₁)
  intro decision s₂ hprocessed
  have hs₂ := hprocessed.since_core hcore₁
  cases decision with
  | none => exact hs₂
  | some decision =>
    refine Effect.Ends.bind (Effect.ends_ofExcept (fun completedAt _ => ?_) fun _ => hs₂)
    refine Effect.Ends.bind (((keeps_complete token claim decision completedAt).ends s₂).mono ?_
      fun _ s₃ h => hs₂.of_core h)
    exact fun _ s₃ h => hs₂.of_core h.2

/-- **What an attempt does to the ledger**: nothing if it could not claim its cycle; else it adds at most one
entry order for a candidate, and none for a candidate that is not of its rows or whose symbol was held. -/
theorem processOne_ends (hhost : Digests host) {s : Worker} (hs : s.Sound host account base)
    {features : List FeatureRecord} (hnse : ∀ f ∈ features, f.market = .nse) (token : String) (clock : SessionClock) :
    let id := sessionCycleIdOf host account features
    let After (s' : Worker) := s'.core = s.core ∨
      (∃ t, clock.claimed = .aware t ∧ Claimable s.cycles id t) ∧
        Attempted host account base settings.registry features s s'
    Effect.Ends ((paperSession host account settings outage token).processOne host clock features) s
      (fun _ => After) fun _ => After := by
  intro id After
  have hnothing : ∀ {s' : Worker}, s' = s → After s' := fun h => Or.inl (congrArg Worker.core h)
  have htimes : Effect.Keeps (fun s : Worker => s)
      (Effect.each (fun feature : FeatureRecord => Effect.ofExcept (utc feature.eventTime "feature.event_time"))
        features) := Effect.Keeps.each (fun _ => Effect.keeps_ofExcept _) features
  refine Effect.Ends.bind ((htimes.ends s).mono ?_ fun _ s₁ h => hnothing h)
  rintro times s₁ ⟨-, hsame⟩
  obtain rfl : s = s₁ := Eq.symm hsame
  refine Effect.Ends.bind (Effect.ends_ofExcept (fun eventTime _ => ?_) fun _ => hnothing rfl)
  refine Effect.Ends.bind (Effect.ends_ofExcept (fun t ht => ?_) fun _ => hnothing rfl)
  have hclock : clock.claimed = .aware t := by
    cases hclaimed : clock.claimed with
    | naive w => rw [hclaimed] at ht; cases ht
    | aware t' => rw [hclaimed] at ht; cases ht; rfl
  have hclaim : Effect.Keeps Worker.core ((sessionStore settings outage token).claim id (recordIdsOf features)
      eventTime t) := keeps_onCycles _
  refine Effect.Ends.bind ((hclaim.ends _).mono ?_ fun _ s₁ h => Or.inl h)
  rintro claim s₁ ⟨hok, hcore₁⟩
  cases hstate : claim.state with
  | completed => exact Or.inl hcore₁
  | busy => exact Or.inl hcore₁
  | claimed =>
    have hclaimable : Claimable s.cycles id t := by
      have hbody : onCycles outage (PostgresPaperSessionStore.claim settings.lease token id (recordIdsOf features)
          eventTime t) s = .ok claim s₁ := hok
      obtain ⟨⟨claim', rows⟩, hrows, he⟩ := map_eq_ok (transaction_ok hbody)
      cases he
      exact claimable_of_claim hrows hstate
    have hdone : ∀ {s' : Worker}, Attempted host account base settings.registry features s₁ s' → After s' :=
      fun h => Or.inr ⟨⟨t, hclock, hclaimable⟩, h.since_core hcore₁⟩
    refine Effect.Ends.tryCatch ((work_ends hhost (hs.of_core hcore₁) hnse token clock claim).mono
      (fun _ _ h => hdone h) ?_)
    intro e s₂ hs₂
    refine ((recover_keeps token clock claim e).ends s₂).mono ?_ ?_
    · exact fun _ s₃ h => hdone (hs₂.of_core h.2)
    · exact fun _ s₃ h => hdone (hs₂.of_core h)

end Sound

end NanoDelta.Runtime
