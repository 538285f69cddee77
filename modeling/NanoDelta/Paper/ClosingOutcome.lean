import NanoDelta.Paper.Instances
import NanoDelta.Paper.Lifecycle
import NanoDelta.Paper.Postings
import NanoDelta.Paper.ProtectiveExits

/-!
# The outcome of a closed position, written twice

A managed exit that closes a position writes its outcome in the same transaction, in SQL from the row of the
position and the row of its exit plan. Afterwards the recorder computes the outcome from the receipt and from
the plan as it was loaded, and the lifecycle store writes it, unless a row is there.

* `closing_row_is_the_recorded_outcome`: the two are one and the same row, and so are those of a replay after a
  crash.
-/

namespace NanoDelta.Paper.Postgres

open Library Risk Strategies Outcomes PostgresLifecycleStore

section Rows

variable {host : Host} {policy : ExecutionPolicy} {faults : Faults}

/-! ### The plan of a position -/

/-- The row that `register_definition` writes for a strategy. -/
def definitionRow (host : Host) (identity : StrategyIdentity) : StrategyRow :=
  ⟨identity.key host, identity.strategyId, identity.strategyVersion, identity.timeframe, identity.tradeHorizon,
    identity.featureSetVersion⟩

/-- The exit plan of a position: its row, the strategy whose row it is joined with, and what the lifecycle store
loads from the two. -/
structure PlanRow (host : Host) (db : Database) (x : ExitPlanRow) (identity : StrategyIdentity) (plan : ExitPlan) :
    Prop where
  /-- The primary key. -/
  only : db.exitPlans.filter (fun x' => x'.positionId = x.positionId) = [x]
  /-- The foreign key. -/
  strategy : x.strategyKey = (definitionRow host identity).strategyKey
  /-- An intent is of the market of its strategy, and a plan of the market of its intent. -/
  market : x.market = identity.market.value
  loaded : fromRow (x, definitionRow host identity) = .ok plan

theorem StrategyIdentity.create_self (identity : StrategyIdentity) :
    StrategyIdentity.create identity.market identity.strategyId identity.strategyVersion identity.timeframe
      identity.tradeHorizon identity.featureSetVersion = .ok identity := by
  obtain ⟨⟨h₁, h₂, h₃, h₄⟩, hversion⟩ := And.intro identity.texts identity.version_pos
  unfold StrategyIdentity.create
  simp [h₁, h₂, h₃, h₄, Nat.not_lt.mpr hversion]

/-- What is loaded. -/
theorem PlanRow.plan {db : Database} {x : ExitPlanRow} {identity : StrategyIdentity} {plan : ExitPlan}
    (h : PlanRow host db x identity plan) :
    plan.positionId = x.positionId ∧ plan.identity = identity ∧ plan.allocatedCapital = x.allocatedCapital ∧
      plan.market = identity.market := by
  have hloaded := h.loaded
  unfold fromRow at hloaded
  simp only [h.market, Market.ofValue_value, definitionRow] at hloaded
  obtain ⟨market, hmarket, h₁⟩ := Effect.except_bind_eq_ok.mp hloaded
  cases hmarket
  obtain ⟨identity', hidentity, h₂⟩ := Effect.except_bind_eq_ok.mp h₁
  rw [StrategyIdentity.create_self] at hidentity
  cases hidentity
  obtain ⟨action, -, h₃⟩ := Effect.except_bind_eq_ok.mp h₂
  cases h₃
  exact ⟨rfl, rfl, rfl, rfl⟩

/-! ### The row that the closing transaction writes -/

theorem positions_of_saveClosedOutcome {db db' : Database} {position : PaperPosition}
    (h : saveClosedOutcome host position db = .ok db') : db'.positions = db.positions := by
  unfold saveClosedOutcome at h
  obtain ⟨outcomes, -, h⟩ := Effect.except_bind_eq_ok.mp h
  cases h
  rfl

/-- What the writes of a receipt that closes its position by a managed exit do to the outcomes. -/
theorem outcomes_of_persist {decision : RiskDecision} {key : String} {r : ExecutionReceipt} {prior : ℚ}
    {c c' : Connection} (h : persist host faults decision key r prior c = .ok () c')
    (hclosed : r.position.state = .closed) (hmanaged : managedExit key r.position = true) :
    ∃ db db', db.positions = c'.database.positions ∧ db.exitPlans = c.database.exitPlans ∧
      db.outcomes = c.database.outcomes ∧ saveClosedOutcome host r.position db = .ok db' ∧
      c'.database.outcomes = db'.outcomes := by
  obtain ⟨c₆, ⟨ho₆, hx₆, -⟩, h⟩ := persist_ok h
  rw [if_pos ⟨hclosed, hmanaged⟩] at h
  unfold settleExit at h
  split at h
  · cases h
  · obtain ⟨_, c₇, h₇, h₈⟩ := Effect.bind_eq_ok.mp h
    have hsaved := database_of_write h₇
    have hclose := database_of_write h₈
    unfold closeExitPlan at hclose
    refine ⟨c₆.database, c₇.database, ?_, hx₆, ho₆, hsaved, ?_⟩
    · rw [← Except.ok.inj hclose]
      exact (positions_of_saveClosedOutcome hsaved).symm
    · rw [← Except.ok.inj hclose]

/-- The row of a position that was closed, joined with the row of its plan: what `_save_closed_outcome` adds to the
outcomes, if there is none of the position. -/
theorem outcomes_of_saveClosedOutcome {db db' : Database} {position : PaperPosition} {x : ExitPlanRow} {t : Instant}
    (h : saveClosedOutcome host position db = .ok db')
    (hrow : db.positions.filter (fun p => p.positionId = position.positionId) = [positionRow position])
    (hclosed : position.state = .closed) (ht : position.closedAt = some t)
    (hplan : db.exitPlans.filter (fun x' => x'.positionId = position.positionId) = [x])
    (hfirst : ∀ row ∈ db.outcomes, row.positionId ≠ position.positionId) :
    db'.outcomes = db.outcomes ++
      [outcomeRow (stableId host ["outcome", position.positionId]) (positionRow position) x t] := by
  have hselected : ((db.positions.filter fun p => p.positionId = position.positionId ∧ p.state = "CLOSED").flatMap
      fun p => (db.exitPlans.filter fun x => x.positionId = p.positionId).map fun x => (p, x)) =
      [(positionRow position, x)] := by
    have hclosedrow : db.positions.filter (fun p => p.positionId = position.positionId ∧ p.state = "CLOSED") =
        [positionRow position] := by
      have hstate : (positionRow position).state = "CLOSED" := by
        rw [positionRow, hclosed]
        rfl
      have hsplit : ∀ p : PositionRow, decide (p.positionId = position.positionId ∧ p.state = "CLOSED") =
          (decide (p.state = "CLOSED") && decide (p.positionId = position.positionId)) := by
        intro p
        rw [Bool.decide_and, Bool.and_comm]
      simp only [hsplit, ← List.filter_filter, hrow]
      rw [List.filter_singleton, decide_eq_true hstate]
      rfl
    rw [hclosedrow, List.flatMap_singleton]
    show (db.exitPlans.filter fun x => x.positionId = position.positionId).map _ = _
    rw [hplan]
    rfl
  unfold saveClosedOutcome at h
  rw [hselected] at h
  obtain ⟨outcomes, houtcomes, h⟩ := Effect.except_bind_eq_ok.mp h
  cases h
  rw [List.foldlM_cons] at houtcomes
  obtain ⟨outcomes', hinsert, houtcomes⟩ := Effect.except_bind_eq_ok.mp houtcomes
  cases houtcomes
  have hcolumn : (positionRow position).closedAt = some t := ht
  simp only [hcolumn] at hinsert
  exact (Table.eq_append_of_insertOrSkip hinsert hfirst).2

/-- A receipt whose position is closed left it closed at the time of its fill. -/
theorem closedAt_newReceipt {current : Option PaperPosition} {decision : RiskDecision} {key : String} {t : Instant}
    (h : (newReceipt host policy current decision key t).position.state = .closed) :
    (newReceipt host policy current decision key t).position.closedAt = some t := by
  cases current with
  | none => cases h
  | some position =>
    by_cases hstate : position.state = .closed
    · simp only [newReceipt, applyFill, hstate, if_true] at h
      cases h
    · simp only [newReceipt, applyFill, hstate, if_false, netFill] at h ⊢
      split_ifs at h ⊢ with hflat
      rfl

/-! ### The row that the recorder's outcome makes -/

/-- The outcome that the recorder computes from the receipt makes the row of the closing transaction; it computes none
just if the position had fills of another strategy. -/
theorem rowOf_record {db : Database} {x : ExitPlanRow} {identity : StrategyIdentity} {plan : ExitPlan}
    (hplan : PlanRow host db x identity plan) {position : PaperPosition} {t : Instant} (hclosed : position.state = .closed)
    (ht : position.closedAt = some t) (hid : position.positionId = plan.positionId)
    (hmarket : position.market = plan.market) {recorder : OutcomeRecorder}
    (hnone : recorder.get? plan.positionId = none) :
    if position.strategyKeys = [plan.identity.key host] then
      ∃ outcome, record host position plan.identity plan.allocatedCapital (.aware t) recorder =
          .ok outcome (recorder.set plan.positionId outcome) ∧
        rowOf host outcome =
          outcomeRow (stableId host ["outcome", position.positionId]) (positionRow position) x t
    else ∃ e, record host position plan.identity plan.allocatedCapital (.aware t) recorder = .error e recorder := by
  obtain ⟨-, hidentity, hcapital, hplanmarket⟩ := hplan.plan
  have hpositive : ¬ plan.allocatedCapital ≤ 0 := by
    rw [hcapital]
    exact not_le.mpr x.capital_pos
  have hsame : position.market = plan.identity.market := by rw [hmarket, hplanmarket, hidentity]
  split
  · rename_i hkeys
    refine ⟨outcomeOf host position plan.identity plan.allocatedCapital t t, ?_, ?_⟩
    · unfold record newOutcome
      simp only [hpositive, if_false, hid, hnone, hclosed, ht, hsame, hkeys, utc, ne_eq, not_true_eq_false, or_self]
    · have hstrategy : plan.identity.key host = x.strategyKey := by rw [hplan.strategy, hidentity]; rfl
      unfold rowOf outcomeOf outcomeRow
      simp only [hstrategy, hcapital]
      rfl
  · rename_i hkeys
    refine ⟨.valueError "outcome requires one matching exact strategy identity", ?_⟩
    unfold record newOutcome
    simp only [hpositive, if_false, hid, hnone, hclosed, ht, hkeys, ne_eq, not_false_eq_true, or_true, if_true]

/-! ### The closing call -/

/-- The position that a new receipt leaves is the row that the database has under its id. -/
theorem row_of_newReceipt (hhost : Text.CollisionFree host.sha256) {db db' : Database}
    {ledger : List ExecutionReceipt} {positions : List PaperPosition} (hfiles : Files db ledger)
    (hbooks : Books host db ledger positions) {decision : RiskDecision} {key : String} {t : Instant}
    {r : ExecutionReceipt} {current : Option PaperPosition} {prior : ℚ} (hnew : receiptOf ledger key = none)
    (hopen : loadOpenPosition (positionKey decision.intent) db = .ok current)
    (hr : r = newReceipt host policy current decision key t) (hrec : Recorded host db db' key r prior) :
    db'.positions.filter (fun p => p.positionId = r.position.positionId) = [positionRow r.position] ∧
      r.position.key = positionKey decision.intent := by
  have hcur : ∀ p ∈ current, p.key = positionKey decision.intent := by
    rintro p rfl
    exact (loadOpenPosition_key hopen).1
  obtain rfl : openIn positions (positionKey decision.intent) = current := by
    rw [loadOpenPosition_rows hbooks.rows] at hopen
    exact Except.ok.inj hopen
  have hkey : r.order.idempotencyKey = key := by rw [hr]; rfl
  have hposition : r.position.key = positionKey decision.intent := by
    rw [hr]
    exact key_applyFill hcur _
  rw [← hkey] at hnew hrec
  obtain ⟨-, hfill⟩ := files_of_recorded hfiles hnew (by rw [hr]; rfl) (hposition.trans (by rw [hr]; rfl)) hrec
  obtain ⟨hbooks', -, -⟩ := post_step hhost hbooks hr hfill hrec
  refine ⟨?_, hposition⟩
  rw [hbooks'.rows]
  have hids : ((List.map positionRow (positionsAfter positions (openIn positions (positionKey decision.intent))
      r.position)).map PositionRow.positionId).Nodup := by
    rw [List.map_map]
    exact hbooks'.ids
  refine Table.filter_eq_singleton hids (r := positionRow r.position) (List.mem_map.mpr ⟨r.position, ?_, rfl⟩)
  cases hcase : openIn positions (positionKey decision.intent) with
  | none => simp [positionsAfter]
  | some q => exact List.mem_map.mpr ⟨q, (mem_of_openIn hcase).1, by rw [if_pos rfl]⟩

/-- A call that closes the position of a plan by a managed exit: it is the first under its key, and the position has no
outcome yet. -/
structure Closing (host : Host) (policy : ExecutionPolicy) (s : Store) (plan : ExitPlan) (reason : ExitReason)
    (decision : RiskDecision) (t : Instant) (faults : Faults) (r : ExecutionReceipt) : Prop where
  /-- The decision is on the intent of a protective exit of the plan. -/
  decided : ∃ mark golds intent limits portfolio, exitIntent host plan reason mark golds t = .ok intent ∧
    evaluateExit host limits intent portfolio (.aware t) = .ok decision
  first : ∀ o ∈ s.database.orders, o.idempotencyKey ≠ exitKey plan reason
  fresh : ∀ row ∈ s.database.outcomes, row.positionId ≠ plan.positionId
  returned : ((engine host policy).step s (.call (.execute decision (exitKey plan reason) (.aware t)) faults)).2 =
    .ok [r]
  same : r.position.positionId = plan.positionId
  closed : r.position.state = .closed

/-- What a store that an engine has reached does in a call that closes a position. -/
theorem Closing.writes (hhost : Text.CollisionFree host.sha256) {s : Store} (hs : InStep host s s.database)
    {x : ExitPlanRow} {identity : StrategyIdentity} {plan : ExitPlan} (hplan : PlanRow host s.database x identity plan)
    {reason : ExitReason} {decision : RiskDecision} {t : Instant} {r : ExecutionReceipt}
    (h : Closing host policy s plan reason decision t faults r) :
    ((engine host policy).step s (.call (.execute decision (exitKey plan reason) (.aware t)) faults)).1.database.outcomes =
        s.database.outcomes ++
          [outcomeRow (stableId host ["outcome", r.position.positionId]) (positionRow r.position) x t] ∧
      r.position.closedAt = some t ∧ r.position.market = plan.market := by
  obtain ⟨hdb, hout⟩ := hs.step hhost (.call (.execute decision (exitKey plan reason) (.aware t)) faults)
  obtain ⟨ledger, positions, htracks, -⟩ := hs.2
  obtain ⟨mark, golds, intent, limits, portfolio, hintent, hdecision⟩ := h.decided
  have hnew : receiptOf ledger (exitKey plan reason) = none := by
    cases hget : receiptOf ledger (exitKey plan reason) with
    | none => rfl
    | some r' =>
      have hmem := List.mem_of_find?_eq_some hget
      have hkey : r'.order.idempotencyKey = exitKey plan reason := by simpa using List.find?_some hget
      refine absurd hkey (h.first (orderRow r'.order.idempotencyKey r'.order) ?_)
      rw [htracks.files.orders]
      exact List.mem_map.mpr ⟨r', hmem, rfl⟩
  -- what the book does
  have hreturned := h.returned
  rw [hout] at hreturned
  obtain ⟨c, hcall⟩ := outcome_eq_ok.mp hreturned
  have hbook : ((book host policy).step s.database
      (.call (.execute decision (exitKey plan reason) (.aware t)) faults)).1 = c.database := by
    show committedOf _ _ = _
    rw [hcall]
    rfl
  simp only [postCall, Effect.map_eq_ok] at hcall
  obtain ⟨r', hatomic, hr'⟩ := hcall
  obtain rfl : r' = r := List.singleton_inj.mp hr'
  obtain ⟨c₁, c₂, hbody, hdb₁, hdb₂⟩ := atomically_ok hatomic
  obtain ⟨-, -, hold | ⟨-, -, current, t', c₃, hopen, htime, hr, hdb₃, hpersist⟩⟩ :=
    post_cases (by rw [hdb₁]; exact htracks.files) hbody
  · rw [hnew] at hold
    cases hold.1
  cases htime
  rw [hdb₁] at hopen hdb₃
  have hrec := (recorded_of_persist hpersist).1
  rw [hdb₃] at hrec
  obtain ⟨hrow, hkey⟩ := row_of_newReceipt hhost htracks.files htracks.books hnew hopen hr hrec
  have hclosedAt : r'.position.closedAt = some t := by
    rw [hr]
    refine closedAt_newReceipt ?_
    rw [← hr]
    exact h.closed
  have hmanaged : managedExit (exitKey plan reason) r'.position = true := by
    unfold managedExit startsWith exitKey
    have hsplit : ("exit:" ++ plan.positionId ++ ":" ++ reason.value).toList =
        ("exit:" ++ plan.positionId ++ ":").toList ++ reason.value.toList := String.toList_append
    rw [h.same, List.isPrefixOf_iff_prefix, hsplit]
    exact List.prefix_append _ _
  obtain ⟨db, db', hpositions, hplans, houtcomes, hsaved, hafter⟩ := outcomes_of_persist hpersist h.closed hmanaged
  rw [hdb₃] at hplans houtcomes
  refine ⟨?_, hclosedAt, ?_⟩
  · rw [hdb.1, hbook, hdb₂, hafter, ← houtcomes]
    refine outcomes_of_saveClosedOutcome hsaved ?_ h.closed hclosedAt ?_ ?_
    · rw [hpositions]
      exact hrow
    · rw [hplans, h.same, hplan.plan.1]
      exact hplan.only
    · rw [houtcomes, h.same]
      exact h.fresh
  · have hposition : r'.position.key = (plan.market, plan.accountId, plan.symbol) := by
      rw [hkey, (evaluateExit_ok hdecision).1]
      exact (exitIntent_ok hintent).1
    exact congrArg Prod.fst hposition

variable (policy) in
/-- A run of an engine adds to the ledger. -/
theorem ledger_of_engine {s : Store} {ledger : List ExecutionReceipt} (hfiles : Files s.database ledger)
    (hcached : Cached s.memory ledger) (inputs : List Input) :
    ∃ more, Files ((engine host policy).exec s inputs).database (ledger ++ more) ∧
      Cached ((engine host policy).exec s inputs).memory (ledger ++ more) := by
  induction inputs generalizing s ledger with
  | nil =>
    refine ⟨[], ?_⟩
    rw [List.append_nil]
    exact ⟨hfiles, hcached⟩
  | cons input inputs ih =>
    have hstep : ∃ more, Files ((engine host policy).step s input).1.database (ledger ++ more) ∧
        Cached ((engine host policy).step s input).1.memory (ledger ++ more) := by
      cases input with
      | call call faults =>
        obtain ⟨more, hfiles', hcached', -⟩ := call_grows host policy faults call hfiles hcached
        exact ⟨more, hfiles', hcached'⟩
      | restart => exact ⟨[], by rwa [List.append_nil], cached_new _⟩
      | others tables =>
        refine ⟨[], ?_⟩
        rw [List.append_nil]
        exact ⟨files_others hfiles tables, hcached⟩
    obtain ⟨more, hfiles', hcached'⟩ := hstep
    obtain ⟨more', hfiles'', hcached''⟩ := ih hfiles' hcached'
    rw [List.append_assoc] at hfiles'' hcached''
    exact ⟨more ++ more', hfiles'', hcached''⟩

variable (host policy) in
/-- **The outcome of a closed position is one row, whoever writes it.** After any run of one engine, with restarts,
failed transactions and replays, let a managed exit of a plan close its position. The transaction adds one row to
the outcomes. The recorder, whatever other positions it has outcomes of, computes from the receipt and the plan an
outcome whose row is this one, unless the position had fills of another strategy: then it raises, and there is no
other writer. And after any further run the exit, whenever it is submitted again and returns, gives the same receipt,
so that a replay after a crash computes the same row. -/
theorem closing_row_is_the_recorded_outcome (hhost : Text.CollisionFree host.sha256) (others : Others)
    (before : List Input) (x : ExitPlanRow) (identity : StrategyIdentity) (plan : ExitPlan) (reason : ExitReason)
    (decision : RiskDecision) (t : Instant) (faults : Faults) (r : ExecutionReceipt)
    (hplan : PlanRow host ((engine host policy).exec (.initial others) before).database x identity plan)
    (hclosing : Closing host policy ((engine host policy).exec (.initial others) before) plan reason decision t
      faults r) :
    let s := (engine host policy).exec (.initial others) before
    let closing := Input.call (.execute decision (exitKey plan reason) (.aware t)) faults
    ∃ row, ((engine host policy).step s closing).1.database.outcomes = s.database.outcomes ++ [row] ∧
      (∀ recorder : OutcomeRecorder, recorder.get? plan.positionId = none →
        if r.position.strategyKeys = [plan.identity.key host] then
          ∃ outcome, record host r.position plan.identity plan.allocatedCapital (.aware t) recorder =
            .ok outcome (recorder.set plan.positionId outcome) ∧ rowOf host outcome = row
        else ∃ e, record host r.position plan.identity plan.allocatedCapital (.aware t) recorder =
          .error e recorder) ∧
      ∀ (later : List Input) (decision' : RiskDecision) (again : DateTime) (faults' : Faults) (r' : ExecutionReceipt),
        ((engine host policy).step ((engine host policy).exec s (closing :: later))
          (.call (.execute decision' (exitKey plan reason) again) faults')).2 = .ok [r'] → r' = r := by
  intro s closing
  have hs : InStep host s s.database := by
    have hengine := (engine_is_the_book policy hhost others before).1
    exact ⟨rfl, hengine.2⟩
  obtain ⟨hrow, hclosedAt, hmarket⟩ := hclosing.writes hhost hs hplan
  refine ⟨_, hrow, ?_, ?_⟩
  · exact fun recorder hnone => rowOf_record hplan hclosing.closed hclosedAt hclosing.same hmarket hnone
  · intro later decision' again faults' r' hagain
    obtain ⟨ledger, positions, htracks, -⟩ := hs.2
    obtain ⟨more, hfiles, hcached, hfiled⟩ := call_grows host policy faults
      (.execute decision (exitKey plan reason) (.aware t)) htracks.files htracks.cached
    obtain ⟨more', hfiles', hcached'⟩ := ledger_of_engine policy hfiles hcached later
    obtain ⟨more'', -, -, hfiled'⟩ := call_grows host policy faults' (.execute decision' (exitKey plan reason) again)
      hfiles' hcached'
    obtain ⟨r₁, rest, hr₁, -, he⟩ := List.forall₂_cons_left_iff.mp (hfiled _ hclosing.returned)
    obtain ⟨r₂, rest', hr₂, -, he'⟩ := List.forall₂_cons_left_iff.mp (hfiled' _ hagain)
    cases he
    cases he'
    have hfirst : receiptOf (ledger ++ more ++ more' ++ more'') (exitKey plan reason) = some r :=
      ((hr₁.append more').append more'').2.1
    rw [hr₂.2.1] at hfirst
    exact Option.some.inj hfirst

end Rows

namespace ClosingSample

open Risk.Sample ExitSample

/-- The texts that the two fills hash in the database, with their SHA-256 digests. -/
def realizations : List (String × String) :=
  [("paper-realization|3ebdba44c20fb4e449a797fa4300875855889968a7143ccb1d6cb4af1b0a0be4",
    "58281fadbaa22f869bc1ee108ae7f336c91b6e0f5851f8008987cbfb3a739697"),
   ("paper-realization|221bf16638e6173fc27615ef944185d1100ef268f55e73e0360ec480012ef7bf",
    "b16b0fe62b0e1fcd41825208c361207fca0067cbbc22d7fb54eaf5fe45704c3a")]

/-- The characters of the table. -/
def spelling : Text.Spelling realizations := by
  repeat' first | exact Text.Spelled.ofList _ | apply Text.Spelled.append | apply Text.Spelling.cons | exact Text.Spelling.nil

theorem hexdigest_realizations : ∀ e ∈ realizations, Sha256.hexdigest e.1 = e.2 := by
  apply Sha256.hexdigest_of_spelling spelling
  -- One text at a time, so that each evaluation is small.
  repeat' first | exact List.forall_mem_nil _ | refine List.forall_mem_cons.mpr ⟨?_, ?_⟩
  all_goals decide +kernel

/-- The runtime on the run. -/
def host : Host := Host.recorded (ExitSample.digests ++ realizations)

theorem host_eq : host = Host.spelled (ExitSample.spelling.append spelling).chars := Host.spelled_eq _

/-- The decision on the entry. -/
def decision : RiskDecision := (entry.judged host limits).toOption.get (by decide +kernel)

/-- The plan of its position. -/
def plan : ExitPlan := planOf allocation (newReceipt host free none decision entry.idempotencyKey noon)

/-- Its row. -/
def planned : ExitPlanRow := (planRow host plan).toOption.get (by decide +kernel)

/-- The tables at first. -/
def others : Others := ⟨["approval-1"], [], [], []⟩

/-- The entry is executed and its plan is stored. -/
def before : List Input :=
  [.call (.execute decision entry.idempotencyKey entry.executedAt) Faults.none,
   .others { others with exitPlans := [planned] }]

/-- The intent of the exit at its stop. -/
def intent : TradeIntent := (exitIntent host plan .stop 106 .empty later).toOption.get (by decide +kernel)

/-- The decision on it. -/
def exit : RiskDecision := (evaluateExit host limits intent short (.aware later)).toOption.get (by decide +kernel)

/-- The receipt that it gives. -/
def receipt : ExecutionReceipt :=
  newReceipt host free (some (newReceipt host free none decision entry.idempotencyKey noon).position) exit
    (exitKey plan .stop) later

end ClosingSample

/-- A position that is stopped out: the transaction writes its outcome, and the recorder computes it again. -/
theorem stopped_out_in_the_database :
    let s := (engine ClosingSample.host ExitSample.free).exec (.initial ClosingSample.others) ClosingSample.before
    let closing := Input.call (.execute ClosingSample.exit (exitKey ClosingSample.plan .stop)
      (.aware ExitSample.later)) Faults.none
    ∃ row outcome, ((engine ClosingSample.host ExitSample.free).step s closing).1.database.outcomes = [row] ∧
      record ClosingSample.host ClosingSample.receipt.position ClosingSample.plan.identity
          ClosingSample.plan.allocatedCapital (.aware ExitSample.later) Dict.empty =
        .ok outcome (Dict.empty.set ClosingSample.plan.positionId outcome) ∧
      rowOf ClosingSample.host outcome = row ∧ row.netPnl = -60 := by
  intro s closing
  have hhost : Text.CollisionFree ClosingSample.host.sha256 :=
    Host.recorded_collisionFree ((ExitSample.spelling.append ClosingSample.spelling).nodup (by decide +kernel))
      (List.forall_mem_append.mpr ⟨ExitSample.hexdigest_digests, ClosingSample.hexdigest_realizations⟩)
  -- All that the run must meet and what it writes, in one evaluation, which makes the run once.
  have hrun :
      (s.database.exitPlans.filter (fun x' => x'.positionId = ClosingSample.planned.positionId) = [ClosingSample.planned] ∧
        ClosingSample.planned.strategyKey = (definitionRow ClosingSample.host Risk.Sample.identity).strategyKey ∧
        ClosingSample.planned.market = Risk.Sample.identity.market.value ∧
        fromRow (ClosingSample.planned, definitionRow ClosingSample.host Risk.Sample.identity) = .ok ClosingSample.plan) ∧
      (exitIntent ClosingSample.host ClosingSample.plan .stop 106 .empty ExitSample.later = .ok ClosingSample.intent ∧
        evaluateExit ClosingSample.host Risk.Sample.limits ClosingSample.intent ExitSample.short
          (.aware ExitSample.later) = .ok ClosingSample.exit) ∧
      (∀ o ∈ s.database.orders, o.idempotencyKey ≠ exitKey ClosingSample.plan .stop) ∧
      s.database.outcomes = [] ∧
      ((engine ClosingSample.host ExitSample.free).step s closing).2 = .ok [ClosingSample.receipt] ∧
      (ClosingSample.receipt.position.positionId = ClosingSample.plan.positionId ∧
        ClosingSample.receipt.position.state = .closed ∧
        ClosingSample.receipt.position.strategyKeys = [ClosingSample.plan.identity.key ClosingSample.host]) ∧
      ((engine ClosingSample.host ExitSample.free).step s closing).1.database.outcomes.map OutcomeRow.netPnl = [-60] := by
    simp only [s, closing, ClosingSample.before, ClosingSample.receipt, ClosingSample.exit, ClosingSample.intent,
      ClosingSample.planned, ClosingSample.plan, ClosingSample.decision, ClosingSample.host_eq]
    decide +kernel
  obtain ⟨⟨honly, hstrategy, hmarket, hloaded⟩, hdecided, hfirst, hempty, hreturned, ⟨hsame, hclosed, hkeys⟩, hnet⟩ := hrun
  have hplan : PlanRow ClosingSample.host s.database ClosingSample.planned Risk.Sample.identity ClosingSample.plan :=
    ⟨honly, hstrategy, hmarket, hloaded⟩
  have hfresh : ∀ row ∈ s.database.outcomes, row.positionId ≠ ClosingSample.plan.positionId := by
    rw [hempty]
    exact List.forall_mem_nil _
  have hclosing : Closing ClosingSample.host ExitSample.free s ClosingSample.plan .stop ClosingSample.exit
      ExitSample.later Faults.none ClosingSample.receipt :=
    { decided := ⟨106, .empty, ClosingSample.intent, Risk.Sample.limits, ExitSample.short, hdecided⟩
      first := hfirst
      fresh := hfresh
      returned := hreturned
      same := hsame
      closed := hclosed }
  obtain ⟨row, hrow, hrecorder, -⟩ := closing_row_is_the_recorded_outcome ClosingSample.host ExitSample.free hhost
    ClosingSample.others ClosingSample.before ClosingSample.planned Risk.Sample.identity ClosingSample.plan .stop
    ClosingSample.exit ExitSample.later Faults.none ClosingSample.receipt hplan hclosing
  have hrecorded := hrecorder .empty rfl
  rw [if_pos hkeys] at hrecorded
  obtain ⟨outcome, houtcome, heq⟩ := hrecorded
  have hrows : ((engine ClosingSample.host ExitSample.free).step s closing).1.database.outcomes = [row] := by
    rw [hrow, hempty]
    rfl
  rw [hrows] at hnet
  exact ⟨row, outcome, hrows, houtcome, heq, (List.cons.inj hnet).1⟩

end NanoDelta.Paper.Postgres
