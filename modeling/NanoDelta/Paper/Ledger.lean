import NanoDelta.Paper.Postgres

/-!
# The durable ledger

What a call that returns does to the tables, and what many engines on one database
keep. The orders, fills and snapshots always hold the images of one list of
receipts, the ledger; a call that returns either finds its receipt there or
appends it. Each engine's cached receipts are receipts of the ledger, so it does
not matter which engine a key is submitted to.

* `executeOne_ledger`: everything a member of a call that returned can have done.
* `replay_returns_the_first_receipt`: a key that was executed once returns the same
  receipt ever after, from every engine.
-/

namespace NanoDelta.Paper.Postgres

open Library Risk

variable {host : Host} {policy : ExecutionPolicy} {faults : Faults}

/-! ### Statements that succeeded -/

theorem perform_eq_ok {c c' : Connection} {u : Unit} :
    perform faults c = .ok u c' ↔ faults c.statements = none ∧ c' = { c with statements := c.statements + 1 } := by
  unfold perform
  simp only [Effect.bind_apply, Effect.get_apply, Effect.set_apply]
  cases faults c.statements with
  | none => simp [eq_comm]
  | some e => simp

theorem read_eq_ok {α : Type} {query : Database → Except PyError α} {c c' : Connection} {a : α} :
    read faults query c = .ok a c' ↔
      faults c.statements = none ∧ query c.database = .ok a ∧ c' = { c with statements := c.statements + 1 } := by
  unfold read
  rw [Effect.bind_eq_ok]
  constructor
  · rintro ⟨u, c₁, hp, h⟩
    obtain ⟨hf, rfl⟩ := perform_eq_ok.mp hp
    rw [Effect.bind_of_ok (Effect.get_apply _)] at h
    obtain ⟨hq, rfl⟩ := Effect.ofExcept_eq_ok.mp h
    exact ⟨hf, hq, rfl⟩
  · rintro ⟨hf, hq, rfl⟩
    refine ⟨(), _, perform_eq_ok.mpr ⟨hf, rfl⟩, ?_⟩
    rw [Effect.bind_of_ok (Effect.get_apply _)]
    exact Effect.ofExcept_eq_ok.mpr ⟨hq, rfl⟩

theorem database_of_write {update : Database → Except PyError Database} {c c' : Connection} {u : Unit}
    (h : write faults update c = .ok u c') : update c.database = .ok c'.database := by
  unfold write at h
  obtain ⟨_, c₁, hp, h⟩ := Effect.bind_eq_ok.mp h
  obtain ⟨-, rfl⟩ := perform_eq_ok.mp hp
  rw [Effect.bind_of_ok (Effect.get_apply _)] at h
  obtain ⟨db, c₂, hu, h⟩ := Effect.bind_eq_ok.mp h
  obtain ⟨hok, rfl⟩ := Effect.ofExcept_eq_ok.mp hu
  cases h
  exact hok

theorem onConnection_eq_ok {α : Type} {x : EStateM PyError Connection α} {s s' : Session} {a : α} :
    onConnection x s = .ok a s' ↔ ∃ c, x s.connection = .ok a c ∧ s' = { s with connection := c } :=
  Effect.focus_eq_ok

theorem onMemory_eq_ok {α : Type} {x : EStateM PyError PaperExecutionEngine α} {s s' : Session} {a : α} :
    onMemory x s = .ok a s' ↔ ∃ m, x s.memory = .ok a m ∧ s' = { s with memory := m } :=
  Effect.focus_eq_ok

/-- A member that returned: its key was bound to its decision, or it recorded a new receipt. -/
theorem executeOne_ok {decision : RiskDecision} {key : String} {executedAt : DateTime} {s s' : Session}
    {r : ExecutionReceipt} (h : executeOne host policy faults decision key executedAt s = .ok r s') :
    isBlank key = false ∧
    ((loadReceipt key s.connection.database = .ok (some r) ∧ r.order.decisionId = decision.decisionId ∧
        s'.connection.database = s.connection.database ∧
        s'.memory = { s.memory with receipts := s.memory.receipts.set key r }) ∨
      (loadReceipt key s.connection.database = .ok none ∧ decision.approved = true ∧
        ∃ current c, loadOpenPosition (positionKey decision.intent) s.connection.database = .ok current ∧
          c.database = s.connection.database ∧
          Paper.execute host policy decision key executedAt
            (hydrate (positionKey decision.intent) current s.memory) = .ok r s'.memory ∧
          persist host faults decision key r (priorRealized current) c = .ok () s'.connection)) := by
  unfold executeOne at h
  split at h
  · cases h
  rename_i hb
  refine ⟨by simpa using hb, ?_⟩
  obtain ⟨_, s₁, hs₁, h₁⟩ := Effect.bind_eq_ok.mp h
  obtain ⟨c₁, hlock, rfl⟩ := onConnection_eq_ok.mp hs₁
  obtain ⟨-, rfl⟩ := perform_eq_ok.mp hlock
  obtain ⟨existing, s₂, hs₂, h₂⟩ := Effect.bind_eq_ok.mp h₁
  obtain ⟨c₂, hc₂, rfl⟩ := onConnection_eq_ok.mp hs₂
  obtain ⟨-, hload, rfl⟩ := read_eq_ok.mp hc₂
  cases existing with
  | some existing =>
    simp only at h₂
    split at h₂
    · cases h₂
    · rename_i hid
      cases h₂
      exact Or.inl ⟨hload, not_not.mp hid, rfl, rfl⟩
  | none =>
    simp only at h₂
    split at h₂
    · cases h₂
    rename_i ha
    obtain ⟨current, s₃, hs₃, h₃⟩ := Effect.bind_eq_ok.mp h₂
    obtain ⟨c₃, hc₃, rfl⟩ := onConnection_eq_ok.mp hs₃
    obtain ⟨-, hopen, rfl⟩ := read_eq_ok.mp hc₃
    obtain ⟨_, s₄, hs₄, h₄⟩ := Effect.bind_eq_ok.mp h₃
    cases hs₄
    obtain ⟨receipt, s₅, hs₅, h₅⟩ := Effect.bind_eq_ok.mp h₄
    obtain ⟨m, hexecute, rfl⟩ := onMemory_eq_ok.mp hs₅
    obtain ⟨_, s₆, hs₆, h₆⟩ := Effect.bind_eq_ok.mp h₅
    obtain ⟨c₄, hpersist, rfl⟩ := onConnection_eq_ok.mp hs₆
    cases h₆
    exact Or.inr ⟨hload, by simpa using ha, current, ⟨s.connection.database, s.connection.statements + 1 + 1 + 1⟩,
      hopen, rfl, hexecute, hpersist⟩

/-! ### Recording a receipt -/

/-- What the writes of a new receipt did to the tables. -/
structure Recorded (host : Host) (db db' : Database) (idempotencyKey : String) (r : ExecutionReceipt)
    (prior : ℚ) : Prop where
  /-- The order was inserted, unless its key was taken. -/
  orders : ((∃ o ∈ db.orders, o.idempotencyKey = idempotencyKey) ∧ db'.orders = db.orders) ∨
    ((∀ o ∈ db.orders, o.orderId ≠ r.order.orderId) ∧
      db'.orders = db.orders ++ [orderRow idempotencyKey r.order])
  /-- The fill was inserted, unless its order was filled. -/
  fills : ((∃ f ∈ db.fills, f.orderId = r.fill.orderId) ∧ db'.fills = db.fills) ∨
    ((∀ f ∈ db.fills, f.fillId ≠ r.fill.fillId) ∧ db'.fills = db.fills ++ [fillRow r.fill])
  /-- The snapshot was inserted, unless the order had one. -/
  orderPositions : ((∃ s ∈ db.orderPositions, s.orderId = r.order.orderId) ∧
      db'.orderPositions = db.orderPositions) ∨
    db'.orderPositions = db.orderPositions ++ [orderPositionRow r.order.orderId r.position]
  /-- The position was inserted or updated. -/
  positions : db'.positions = Table.upserted (fun p => p.positionId = r.position.positionId)
    (fun p => p.update (positionRow r.position)) (positionRow r.position) db.positions
  /-- One position is open for each key. -/
  apart : db'.positions.Pairwise fun p p' => ¬ p.clash p'
  /-- The event was inserted, unless the fill had one. -/
  realizationEvents : ((∃ e ∈ db.realizationEvents, e.fillId = r.fill.fillId) ∧
      db'.realizationEvents = db.realizationEvents) ∨
    db'.realizationEvents = db.realizationEvents ++ [realizationRow host r.fill r.position prior]

/-- What the writes of a new receipt did to the decisions: the decision was inserted, unless its id was
taken. -/
def Decided (db db' : Database) (decision : RiskDecision) : Prop :=
  ((∃ d ∈ db.decisions, d.decisionId = decision.decisionId) ∧ db'.decisions = db.decisions) ∨
    ((∀ d ∈ db.decisions, d.decisionId ≠ decision.decisionId) ∧
      db'.decisions = db.decisions ++ [decisionRow decision])

/-- Writing the outcome and closing the exit plan leave the tables of the ledger. -/
theorem Recorded.of_outcome {db db₁ db₂ db₃ : Database} {key : String} {r : ExecutionReceipt} {prior : ℚ}
    {reason : String} (h : Recorded host db db₁ key r prior)
    (houtcome : saveClosedOutcome host r.position db₁ = .ok db₂)
    (hplan : closeExitPlan reason r.position db₂ = .ok db₃) :
    Recorded host db db₃ key r prior ∧ db₃.decisions = db₁.decisions := by
  cases hplan
  unfold saveClosedOutcome at houtcome
  obtain ⟨outcomes, -, houtcome⟩ := Effect.except_bind_eq_ok.mp houtcome
  cases houtcome
  exact ⟨⟨h.orders, h.fills, h.orderPositions, h.positions, h.apart, h.realizationEvents⟩, rfl⟩

/-- The writes of a receipt. -/
theorem recorded_of_persist {decision : RiskDecision} {key : String} {r : ExecutionReceipt} {prior : ℚ}
    {c c' : Connection} {u : Unit} (h : persist host faults decision key r prior c = .ok u c') :
    Recorded host c.database c'.database key r prior ∧ Decided c.database c'.database decision := by
  unfold persist at h
  obtain ⟨_, ⟨db₁, n₁⟩, h₁, h⟩ := Effect.bind_eq_ok.mp h
  obtain ⟨_, ⟨db₂, n₂⟩, h₂, h⟩ := Effect.bind_eq_ok.mp h
  obtain ⟨_, ⟨db₃, n₃⟩, h₃, h⟩ := Effect.bind_eq_ok.mp h
  obtain ⟨_, ⟨db₄, n₄⟩, h₄, h⟩ := Effect.bind_eq_ok.mp h
  obtain ⟨_, ⟨db₅, n₅⟩, h₅, h⟩ := Effect.bind_eq_ok.mp h
  obtain ⟨_, ⟨db₆, n₆⟩, h₆, h⟩ := Effect.bind_eq_ok.mp h
  obtain ⟨decisions, hdecisions, hdb₁⟩ := Effect.except_bind_eq_ok.mp (database_of_write h₁)
  cases hdb₁
  obtain ⟨orders, horders, hdb₂⟩ := Effect.except_bind_eq_ok.mp (database_of_write h₂)
  cases hdb₂
  obtain ⟨fills, hfills, hdb₃⟩ := Effect.except_bind_eq_ok.mp (database_of_write h₃)
  cases hdb₃
  obtain ⟨positions, hpositions, hdb₄⟩ := Effect.except_bind_eq_ok.mp (database_of_write h₄)
  cases hdb₄
  obtain ⟨snapshots, hsnapshots, hdb₅⟩ := Effect.except_bind_eq_ok.mp (database_of_write h₅)
  cases hdb₅
  obtain ⟨events, hevents, hdb₆⟩ := Effect.except_bind_eq_ok.mp (database_of_write h₆)
  cases hdb₆
  obtain ⟨-, hpairwise, hpositions⟩ := Table.upsert_eq_ok.mp hpositions
  have hrecorded : Recorded host c.database
      { c.database with
        decisions, orders, fills, positions, orderPositions := snapshots, realizationEvents := events }
      key r prior := by
    refine ⟨?_, ?_, ?_, hpositions, hpositions ▸ hpairwise, ?_⟩
    · rcases (Table.insertOrSkip_eq_ok.mp horders).2 with h | ⟨-, ⟨hid, -⟩, h⟩
      · exact Or.inl h
      · exact Or.inr ⟨hid, h⟩
    · rcases (Table.insertOrSkip_eq_ok.mp hfills).2 with h | ⟨-, ⟨hid, -⟩, h⟩
      · exact Or.inl h
      · exact Or.inr ⟨hid, h⟩
    · rcases (Table.insertOrSkip_eq_ok.mp hsnapshots).2 with h | ⟨-, -, h⟩
      · exact Or.inl h
      · exact Or.inr h
    · rcases (Table.insertOrSkip_eq_ok.mp hevents).2 with h | ⟨-, -, h⟩
      · exact Or.inl h
      · exact Or.inr h
  have hdecided : Decided c.database
      { c.database with
        decisions, orders, fills, positions, orderPositions := snapshots, realizationEvents := events }
      decision := by
    rcases (Table.insertOrSkip_eq_ok.mp hdecisions).2 with h | ⟨hfree, -, h⟩
    · exact Or.inl h
    · exact Or.inr ⟨hfree, h⟩
  split at h
  · -- a managed exit closed the position
    unfold settleExit at h
    split at h
    · cases h
    · obtain ⟨_, ⟨db₇, n₇⟩, h₇, h₈⟩ := Effect.bind_eq_ok.mp h
      obtain ⟨hrecorded', hsame⟩ := hrecorded.of_outcome (database_of_write h₇) (database_of_write h₈)
      refine ⟨hrecorded', ?_⟩
      unfold Decided at hdecided ⊢
      rwa [hsame]
  · cases h
    exact ⟨hrecorded, hdecided⟩

/-! ### The ledger grows -/

theorem receiptOf_append {ledger : List ExecutionReceipt} {key : String} {r : ExecutionReceipt}
    (h : receiptOf ledger key = some r) (more : List ExecutionReceipt) :
    receiptOf (ledger ++ more) key = some r := by
  unfold receiptOf at h ⊢
  rw [List.find?_append, h]
  rfl

theorem receiptOf_eq_none_of_append {ledger more : List ExecutionReceipt} {key : String}
    (h : receiptOf (ledger ++ more) key = none) : receiptOf ledger key = none := by
  cases hr : receiptOf ledger key with
  | none => rfl
  | some r =>
    rw [receiptOf_append hr] at h
    cases h

theorem receiptOf_concat {ledger : List ExecutionReceipt} {r : ExecutionReceipt}
    (h : receiptOf ledger r.order.idempotencyKey = none) :
    receiptOf (ledger ++ [r]) r.order.idempotencyKey = some r := by
  unfold receiptOf at h ⊢
  rw [List.find?_append, h]
  simp

theorem ne_of_receiptOf_eq_none {ledger : List ExecutionReceipt} {key : String} (h : receiptOf ledger key = none)
    {r : ExecutionReceipt} (hr : r ∈ ledger) : r.order.idempotencyKey ≠ key := by
  unfold receiptOf at h
  rw [List.find?_eq_none] at h
  simpa using h r hr

/-- A new receipt is appended to the ledger, and its fill is new. -/
theorem files_of_recorded {db db' : Database} {ledger : List ExecutionReceipt} {r : ExecutionReceipt} {prior : ℚ}
    (h : Files db ledger) (hnew : receiptOf ledger r.order.idempotencyKey = none)
    (hfilled : r.fill.orderId = r.order.orderId) (hkeyed : r.position.key = r.order.key)
    (hrec : Recorded host db db' r.order.idempotencyKey r prior) :
    Files db' (ledger ++ [r]) ∧ ∀ r' ∈ ledger, r'.fill.fillId ≠ r.fill.fillId := by
  -- the order is inserted, so its id is new, and with it the fill and the snapshot
  obtain ⟨hid, horders⟩ : (∀ o ∈ db.orders, o.orderId ≠ r.order.orderId) ∧
      db'.orders = db.orders ++ [orderRow r.order.idempotencyKey r.order] := by
    rcases hrec.orders with ⟨⟨o, ho, hk⟩, -⟩ | h'
    · rw [h.orders] at ho
      obtain ⟨r', hr', rfl⟩ := List.mem_map.mp ho
      exact absurd hk (ne_of_receiptOf_eq_none hnew hr')
    · exact h'
  have hid' : ∀ r' ∈ ledger, r'.order.orderId ≠ r.order.orderId := by
    intro r' hr'
    refine hid (orderRow r'.order.idempotencyKey r'.order) ?_
    rw [h.orders]
    exact List.mem_map.mpr ⟨r', hr', rfl⟩
  obtain ⟨hfill, hfills⟩ : (∀ f ∈ db.fills, f.fillId ≠ r.fill.fillId) ∧ db'.fills = db.fills ++ [fillRow r.fill] := by
    rcases hrec.fills with ⟨⟨f, hf, ho⟩, -⟩ | h'
    · rw [h.fills] at hf
      obtain ⟨r', hr', rfl⟩ := List.mem_map.mp hf
      exact absurd ((h.filled r' hr').symm.trans (ho.trans hfilled)) (hid' r' hr')
    · exact h'
  have hsnapshots : db'.orderPositions = db.orderPositions ++ [orderPositionRow r.order.orderId r.position] := by
    rcases hrec.orderPositions with ⟨⟨s, hs, ho⟩, -⟩ | h'
    · rw [h.orderPositions] at hs
      obtain ⟨r', hr', rfl⟩ := List.mem_map.mp hs
      exact absurd ho (hid' r' hr')
    · exact h'
  refine ⟨⟨?_, ?_, ?_, ?_, ?_, ?_, ?_⟩, ?_⟩
  · rw [horders, h.orders, List.map_append]
    rfl
  · rw [hfills, h.fills, List.map_append]
    rfl
  · rw [hsnapshots, h.orderPositions, List.map_append]
    rfl
  · exact Table.nodup_concat h.keys fun r' hr' => ne_of_receiptOf_eq_none hnew hr'
  · exact Table.nodup_concat h.orderIds hid'
  · intro r' hr'
    rcases List.mem_append.mp hr' with hr' | hr'
    · exact h.filled r' hr'
    · rw [List.mem_singleton.mp hr', hfilled]
  · intro r' hr'
    rcases List.mem_append.mp hr' with hr' | hr'
    · exact h.keyed r' hr'
    · rw [List.mem_singleton.mp hr', hkeyed]
  · intro r' hr'
    refine hfill (fillRow r'.fill) ?_
    rw [h.fills]
    exact List.mem_map.mpr ⟨r', hr', rfl⟩

/-! ### Caches -/

/-- A cache that belongs to the ledger: its receipts are in it, and its positions are under their
own keys. It may lag behind the ledger. -/
structure Cached (memory : PaperExecutionEngine) (ledger : List ExecutionReceipt) : Prop where
  /-- The cached receipts are the ledger's. -/
  receipts : ∀ key r, memory.receipts.get? key = some r → receiptOf ledger key = some r
  /-- Each position is cached under its key. -/
  keyed : ∀ key position, memory.positions.get? key = some position → position.key = key

theorem cached_new (ledger : List ExecutionReceipt) : Cached .new ledger := by
  constructor
  · intro _ _ h
    cases h
  · intro _ _ h
    cases h

theorem Cached.append {memory : PaperExecutionEngine} {ledger : List ExecutionReceipt} (h : Cached memory ledger)
    (more : List ExecutionReceipt) : Cached memory (ledger ++ more) :=
  ⟨fun key r hr => receiptOf_append (h.receipts key r hr) more, h.keyed⟩

/-- Caching a receipt of the ledger. -/
theorem Cached.set {memory : PaperExecutionEngine} {ledger : List ExecutionReceipt} (h : Cached memory ledger)
    {key : String} {r : ExecutionReceipt} (hr : receiptOf ledger key = some r) :
    Cached { memory with receipts := memory.receipts.set key r } ledger := by
  refine ⟨?_, h.keyed⟩
  intro key' r' hget
  simp only [Dict.get?_set] at hget
  split at hget
  · rename_i he
    cases hget
    rw [he, hr]
  · exact h.receipts key' r' hget

/-- Caching the open position of a key. -/
theorem Cached.hydrate {memory : PaperExecutionEngine} {ledger : List ExecutionReceipt} (h : Cached memory ledger)
    {key : PositionKey} {current : Option PaperPosition} (hcur : ∀ p ∈ current, p.key = key) :
    Cached (hydrate key current memory) ledger := by
  cases current with
  | none => exact h
  | some p =>
    refine ⟨h.receipts, ?_⟩
    intro key' p' hget
    simp only [Postgres.hydrate, Dict.get?_set] at hget
    split at hget
    · rename_i he
      cases hget
      rw [he, hcur p rfl]
    · exact h.keyed key' p' hget

/-- A fill applied to a position of its key, or to none, gives a position of its key. -/
theorem key_applyFill {current : Option PaperPosition} {decision : RiskDecision}
    (h : ∀ p ∈ current, p.key = positionKey decision.intent) (fill : PaperFill) :
    (applyFill host current decision fill).key = positionKey decision.intent := by
  cases current with
  | none => rfl
  | some p =>
    unfold applyFill
    simp only
    split
    · rfl
    · exact h p rfl

/-- Caching a new receipt, once it is in the ledger. -/
theorem Cached.record {memory : PaperExecutionEngine} {ledger : List ExecutionReceipt} (h : Cached memory ledger)
    {decision : RiskDecision} {r : ExecutionReceipt} (hr : receiptOf ledger r.order.idempotencyKey = some r)
    (hkey : r.position.key = positionKey decision.intent) :
    Cached (memory.record decision r.order.idempotencyKey r) ledger := by
  refine ⟨(h.set hr).receipts, ?_⟩
  intro key' p' hget
  simp only [PaperExecutionEngine.record, Dict.get?_set] at hget
  split at hget
  · rename_i he
    cases hget
    rw [he, hkey]
  · exact h.keyed key' p' hget

/-! ### Members -/

/-- **Everything a member that returned can have done**: found its receipt in the ledger, or
recorded a new receipt of the fill that it applied to the hydrated cache. -/
theorem executeOne_ledger {decision : RiskDecision} {key : String} {executedAt : DateTime} {s s' : Session}
    {r : ExecutionReceipt} {ledger : List ExecutionReceipt} (hfiles : Files s.connection.database ledger)
    (hcached : Cached s.memory ledger) (h : executeOne host policy faults decision key executedAt s = .ok r s') :
    isBlank key = false ∧ r.order.decisionId = decision.decisionId ∧
    ((receiptOf ledger key = some r ∧ s'.connection.database = s.connection.database ∧
        s'.memory = { s.memory with receipts := s.memory.receipts.set key r }) ∨
      (receiptOf ledger key = none ∧ decision.approved = true ∧ r.order.idempotencyKey = key ∧
        ∃ current t, loadOpenPosition (positionKey decision.intent) s.connection.database = .ok current ∧
          r = newReceipt host policy ((hydrate (positionKey decision.intent) current s.memory).positions.get?
            (positionKey decision.intent)) decision key t ∧
          s'.memory = (hydrate (positionKey decision.intent) current s.memory).record decision key r ∧
          Recorded host s.connection.database s'.connection.database key r (priorRealized current) ∧
          Decided s.connection.database s'.connection.database decision)) := by
  obtain ⟨hblank, h⟩ := executeOne_ok h
  refine ⟨hblank, ?_⟩
  simp only [loadReceipt_files hfiles, Except.ok.injEq] at h
  rcases h with ⟨hload, hid, hdb, hmem⟩ | ⟨hload, ha, current, c, hopen, hc, hexecute, hpersist⟩
  · exact ⟨hid, Or.inl ⟨hload, hdb, hmem⟩⟩
  · obtain ⟨hrec, hdecided⟩ := recorded_of_persist hpersist
    rw [hc] at hrec hdecided
    have hmiss : (hydrate (positionKey decision.intent) current s.memory).receipts.get? key = none := by
      have hsame : (hydrate (positionKey decision.intent) current s.memory).receipts = s.memory.receipts := by
        cases current <;> rfl
      rw [hsame]
      cases hget : s.memory.receipts.get? key with
      | none => rfl
      | some r' =>
        have := hcached.receipts key r' hget
        rw [hload] at this
        cases this
    rcases execute_cases host policy decision key executedAt (hydrate (positionKey decision.intent) current s.memory)
      with ⟨e, hx⟩ | ⟨cached, -, hget, -⟩ | ⟨t, -, -, -, -, hx⟩
    · rw [hx] at hexecute; cases hexecute
    · rw [hmiss] at hget; cases hget
    · rw [hx] at hexecute
      simp only [EStateM.Result.ok.injEq] at hexecute
      obtain ⟨hr, hmem⟩ := hexecute
      subst hr
      exact ⟨rfl, Or.inr ⟨hload, ha, rfl, current, t, hopen, rfl, hmem.symm, hrec, hdecided⟩⟩

/-- The key of a batch member is bound to its decision in the ledger, with this receipt. -/
def Filed (ledger : List ExecutionReceipt) (m : String × RiskDecision) (r : ExecutionReceipt) : Prop :=
  isBlank m.1 = false ∧ receiptOf ledger m.1 = some r ∧ r.order.decisionId = m.2.decisionId

theorem Filed.append {ledger : List ExecutionReceipt} {m : String × RiskDecision} {r : ExecutionReceipt}
    (h : Filed ledger m r) (more : List ExecutionReceipt) : Filed (ledger ++ more) m r :=
  ⟨h.1, receiptOf_append h.2.1 more, h.2.2⟩

/-- The connection and the cache of a session belong to the ledger. -/
structure Follows (s : Session) (ledger : List ExecutionReceipt) : Prop where
  files : Files s.connection.database ledger
  cached : Cached s.memory ledger

/-- A member that returned left the ledger as it was or appended its receipt. -/
theorem executeOne_grows {m : String × RiskDecision} {executedAt : DateTime} {s s' : Session}
    {r : ExecutionReceipt} {ledger : List ExecutionReceipt} (hs : Follows s ledger)
    (h : executeOne host policy faults m.2 m.1 executedAt s = .ok r s') :
    ∃ more, (more = [] ∨ more = [r]) ∧ Follows s' (ledger ++ more) ∧ Filed (ledger ++ more) m r := by
  obtain ⟨hblank, hid, ⟨hr, hdb, hmem⟩ | ⟨hnew, -, hkey, current, t, hopen, hreceipt, hmem, hrec, -⟩⟩ :=
    executeOne_ledger hs.files hs.cached h
  · refine ⟨[], Or.inl rfl, ?_, ?_⟩
    · rw [List.append_nil]
      exact ⟨hdb ▸ hs.files, hmem ▸ hs.cached.set hr⟩
    · rw [List.append_nil]
      exact ⟨hblank, hr, hid⟩
  · have hcur : ∀ p ∈ current, p.key = positionKey m.2.intent := by
      rintro p rfl
      exact (loadOpenPosition_key hopen).1
    have hcached := hs.cached.hydrate hcur
    have hposition : r.position.key = positionKey m.2.intent := by
      rw [hreceipt]
      exact key_applyFill (fun p hp => hcached.keyed _ p hp) _
    have horder : r.order.key = positionKey m.2.intent := by rw [hreceipt]; rfl
    have hfilled : r.fill.orderId = r.order.orderId := by rw [hreceipt]; rfl
    rw [← hkey] at hnew hrec hmem
    have hfound := receiptOf_concat hnew
    refine ⟨[r], Or.inr rfl, ⟨?_, ?_⟩, hblank, hkey ▸ hfound, hid⟩
    · exact (files_of_recorded hs.files hnew hfilled (hposition.trans horder.symm) hrec).1
    · rw [hmem]
      exact (hcached.append [r]).record hfound hposition

/-- A loop over members that returned. -/
theorem each_grows {ms : List (String × RiskDecision)} {executedAt : DateTime} {s s' : Session}
    {rs : List ExecutionReceipt} {ledger : List ExecutionReceipt} (hs : Follows s ledger)
    (h : Effect.each (fun m => executeOne host policy faults m.2 m.1 executedAt) ms s = .ok rs s') :
    ∃ more, Follows s' (ledger ++ more) ∧ List.Forall₂ (Filed (ledger ++ more)) ms rs := by
  induction ms generalizing s rs ledger with
  | nil =>
    obtain ⟨rfl, rfl⟩ := Effect.each_nil_eq_ok.mp h
    exact ⟨[], by rwa [List.append_nil], .nil⟩
  | cons m ms ih =>
    obtain ⟨r, s₁, rs', hr, hrs, rfl⟩ := Effect.each_cons_eq_ok.mp h
    obtain ⟨more₁, -, hs₁, hfiled⟩ := executeOne_grows hs hr
    obtain ⟨more₂, hs₂, hfiled'⟩ := ih hs₁ hrs
    rw [List.append_assoc] at hs₂ hfiled'
    refine ⟨more₁ ++ more₂, hs₂, .cons ?_ hfiled'⟩
    rw [← List.append_assoc]
    exact hfiled.append more₂

/-! ### Calls -/

/-- A transaction that returned: its body ran on the committed database, and was committed. -/
theorem transact_ok {α : Type} {body : EStateM PyError Session α} {s s' : Session} {a : α}
    (h : transact faults body s = .ok a s') :
    ∃ s₁ s₂, body s₁ = .ok a s₂ ∧ s₁.connection.database = s.committed ∧ s₁.memory = s.memory ∧
      s'.committed = s₂.connection.database ∧ s'.memory = s₂.memory := by
  unfold transact at h
  obtain ⟨_, s₁, hconnect, h⟩ := Effect.bind_eq_ok.mp h
  rw [Effect.bind_of_ok (Effect.get_apply s₁)] at h
  obtain ⟨_, s₀, hmodify, hperform⟩ := Effect.bind_eq_ok.mp hconnect
  cases hmodify
  obtain ⟨c, hc, rfl⟩ := onConnection_eq_ok.mp hperform
  obtain ⟨-, rfl⟩ := perform_eq_ok.mp hc
  rw [Effect.tryCatch_apply] at h
  split at h
  · rename_i a' s₂ htry
    cases h
    obtain ⟨a', s₂, hbody, hcommit⟩ := Effect.bind_eq_ok.mp htry
    obtain ⟨_, s₃, hcommit, hpure⟩ := Effect.bind_eq_ok.mp hcommit
    cases hpure
    obtain ⟨_, s₄, hperform', hmodify⟩ := Effect.bind_eq_ok.mp hcommit
    cases hmodify
    obtain ⟨c', hc', rfl⟩ := onConnection_eq_ok.mp hperform'
    obtain ⟨-, rfl⟩ := perform_eq_ok.mp hc'
    exact ⟨_, s₂, hbody, rfl, rfl, rfl, rfl⟩
  · cases h

/-- The members of a call: the keys and decisions it submits. -/
def members : Call → List (String × RiskDecision)
  | .execute decision key _ => [(key, decision)]
  | .executeBatch decisions batchId _ => Paper.members batchId decisions

/-- What a call that returned did: its loop over its members, in one transaction. -/
theorem run_ok {call : Call} {s s' : Session} {rs : List ExecutionReceipt}
    (h : run host policy faults call s = .ok rs s') :
    ∃ executedAt s₁ s₂,
      Effect.each (fun m => executeOne host policy faults m.2 m.1 executedAt) (members call) s₁ = .ok rs s₂ ∧
      s₁.connection.database = s.committed ∧ s₁.memory = s.memory ∧
      s'.committed = s₂.connection.database ∧ s'.memory = s₂.memory := by
  cases call with
  | execute decision key executedAt =>
    simp only [run, Effect.map_apply] at h
    cases hx : execute host policy faults decision key executedAt s with
    | error e s₁ => rw [hx] at h; cases h
    | ok r s₃ =>
      rw [hx] at h
      cases h
      obtain ⟨s₁, s₂, hbody, hrest⟩ := transact_ok hx
      exact ⟨executedAt, s₁, s₂, Effect.each_cons_eq_ok.mpr ⟨r, s₂, [], hbody, rfl, rfl⟩, hrest⟩
  | executeBatch decisions batchId executedAt =>
    simp only [run, executeBatch] at h
    split at h
    · cases h
    · split at h
      · cases h
      · split at h
        · cases h
        · obtain ⟨s₁, s₂, hbody, hrest⟩ := transact_ok h
          exact ⟨executedAt, s₁, s₂, hbody, hrest⟩

variable (host policy faults) in
/-- A call leaves the ledger as it was or appends to it; if it returns, its keys are bound. -/
theorem call_grows (call : Call) {s : Store} {ledger : List ExecutionReceipt} (hfiles : Files s.database ledger)
    (hcached : Cached s.memory ledger) :
    let next := (engine host policy).step s (.call call faults)
    ∃ more, Files next.1.database (ledger ++ more) ∧ Cached next.1.memory (ledger ++ more) ∧
      ∀ rs, next.2 = .ok rs → List.Forall₂ (Filed (ledger ++ more)) (members call) rs := by
  simp only [engine]
  cases hrun : run host policy faults call s.session with
  | error e s' =>
    have hstore : s'.store = s := run_error hrun
    refine ⟨[], ?_, ?_, ?_⟩
    · rw [Effect.final_error, hstore, List.append_nil]
      exact hfiles
    · rw [Effect.final_error, hstore, List.append_nil]
      exact hcached
    · intro rs h
      cases h
  | ok rs s' =>
    obtain ⟨executedAt, s₁, s₂, hloop, hdb₁, hmem₁, hdb₂, hmem₂⟩ := run_ok hrun
    have hstart : Follows s₁ ledger := by
      constructor
      · rw [hdb₁]; exact hfiles
      · rw [hmem₁]; exact hcached
    obtain ⟨more, hfollows, hfiled⟩ := each_grows hstart hloop
    refine ⟨more, ?_, ?_, ?_⟩
    · exact (congrArg (Files · (ledger ++ more)) hdb₂).mpr hfollows.files
    · exact (congrArg (Cached · (ledger ++ more)) hmem₂).mpr hfollows.cached
    · intro rs' h
      cases h
      exact hfiled

/-! ### Many engines on one database -/

/-- The database, and the cache of each engine that uses it. An engine that was not used yet has
an empty cache, so a fresh instance is a number that did not occur. -/
structure World where
  database : Database
  engines : ℕ → PaperExecutionEngine

/-- What can happen to the database and its engines. -/
inductive WorldInput where
  /-- A call on one of the engines, some of whose statements may fail. -/
  | call (instance_ : ℕ) (call : Call) (faults : Faults)
  /-- Other parts of the program write their tables. -/
  | others (tables : Others)

variable (host policy) in
/-- The engines on their database, as a machine: the calls are made one after the other. -/
def world : Machine World WorldInput (Except PyError (List ExecutionReceipt)) where
  step w
    | .call i call faults =>
      let next := (engine host policy).step ⟨w.database, w.engines i⟩ (.call call faults)
      (⟨next.1.database, Function.update w.engines i next.1.memory⟩, next.2)
    | .others tables => ({ w with database := tables.into w.database }, .ok [])

theorem world_call_output (w : World) (i : ℕ) (call : Call) (faults : Faults) :
    ((world host policy).step w (.call i call faults)).2 =
      outcome (run host policy faults call (Store.session ⟨w.database, w.engines i⟩)) := rfl

/-- Empty paper tables, and no engine used yet. -/
def World.initial (others : Others) : World := ⟨others.initial, fun _ => .new⟩

/-- The database and every cache belong to the ledger. -/
structure Shared (w : World) (ledger : List ExecutionReceipt) : Prop where
  files : Files w.database ledger
  cached : ∀ i, Cached (w.engines i) ledger

theorem shared_initial (others : Others) : Shared (World.initial others) [] := by
  refine ⟨⟨rfl, rfl, rfl, List.nodup_nil, List.nodup_nil, ?_, ?_⟩, fun _ => cached_new _⟩
  · intro r hr
    cases hr
  · intro r hr
    cases hr

theorem files_others {db : Database} {ledger : List ExecutionReceipt} (h : Files db ledger) (tables : Others) :
    Files (tables.into db) ledger :=
  ⟨h.orders, h.fills, h.orderPositions, h.keys, h.orderIds, h.filled, h.keyed⟩

variable (host policy) in
/-- One step: the ledger grows, and the keys of a call that returned are bound. -/
theorem Shared.step {w : World} {ledger : List ExecutionReceipt} (h : Shared w ledger) (input : WorldInput) :
    ∃ more, Shared ((world host policy).step w input).1 (ledger ++ more) ∧
      ∀ i call faults rs, input = .call i call faults → ((world host policy).step w input).2 = .ok rs →
        List.Forall₂ (Filed (ledger ++ more)) (members call) rs := by
  cases input with
  | call i call faults =>
    obtain ⟨more, hfiles, hcached, hfiled⟩ :=
      call_grows host policy faults call (s := ⟨w.database, w.engines i⟩) h.files (h.cached i)
    refine ⟨more, ⟨hfiles, ?_⟩, ?_⟩
    · intro j
      by_cases hj : j = i
      · subst hj
        simp only [world, Function.update_self]
        exact hcached
      · simp only [world, Function.update_of_ne hj]
        exact (h.cached j).append more
    · intro i' call' faults' rs hinput hout
      cases hinput
      exact hfiled rs hout
  | others tables =>
    refine ⟨[], ⟨?_, ?_⟩, ?_⟩
    · rw [List.append_nil]
      exact files_others h.files tables
    · intro j
      rw [List.append_nil]
      exact h.cached j
    · intro i call faults rs hinput
      cases hinput

variable (host policy) in
/-- A run: the ledger grows. -/
theorem Shared.exec {w : World} {ledger : List ExecutionReceipt} (h : Shared w ledger) (inputs : List WorldInput) :
    ∃ more, Shared ((world host policy).exec w inputs) (ledger ++ more) := by
  refine Machine.exec_invariant (P := fun w => ∃ more, Shared w (ledger ++ more)) ?_
    ⟨[], by rwa [List.append_nil]⟩ inputs
  rintro w' input ⟨more, hw'⟩
  obtain ⟨more', hw'', -⟩ := hw'.step host policy input
  rw [List.append_assoc] at hw''
  exact ⟨more ++ more', hw''⟩

/-! ### Replay -/

/-- A bound key returns its receipt. -/
theorem executeOne_of_filed {ledger : List ExecutionReceipt} {m : String × RiskDecision} {r : ExecutionReceipt}
    (h : Filed ledger m r) {s : Session} (hs : Files s.connection.database ledger) (again : DateTime) :
    ∃ s', executeOne host policy Faults.none m.2 m.1 again s = .ok r s' ∧
      s'.connection.database = s.connection.database := by
  obtain ⟨hblank, hr, hid⟩ := h
  have hload : onConnection (read Faults.none (loadReceipt m.1))
      { s with connection := { s.connection with statements := s.connection.statements + 1 } } =
      .ok (some r)
        { s with connection := { s.connection with statements := s.connection.statements + 1 + 1 } } :=
    onConnection_eq_ok.mpr ⟨_, read_eq_ok.mpr ⟨rfl, (loadReceipt_files hs m.1).trans (by rw [hr]), rfl⟩, rfl⟩
  refine ⟨⟨s.committed, { s.connection with statements := s.connection.statements + 1 + 1 },
    { s.memory with receipts := s.memory.receipts.set m.1 r }⟩, ?_, rfl⟩
  have hlock : onConnection (lockPosition Faults.none) s =
      .ok () { s with connection := { s.connection with statements := s.connection.statements + 1 } } := rfl
  unfold executeOne
  simp only [hblank, Bool.false_eq_true, if_false]
  rw [Effect.bind_of_ok hlock, Effect.bind_of_ok hload]
  simp only [hid, ne_eq, not_true_eq_false, if_false]
  rfl

/-- A loop over bound keys returns their receipts. -/
theorem each_of_filed {ledger : List ExecutionReceipt} {ms : List (String × RiskDecision)}
    {rs : List ExecutionReceipt} (h : List.Forall₂ (Filed ledger) ms rs) {s : Session}
    (hs : Files s.connection.database ledger) (again : DateTime) :
    ∃ s', Effect.each (fun m => executeOne host policy Faults.none m.2 m.1 again) ms s = .ok rs s' := by
  induction h generalizing s with
  | nil => exact ⟨s, rfl⟩
  | cons hfiled _ ih =>
    obtain ⟨s₁, h₁, hdb₁⟩ := executeOne_of_filed hfiled hs again
    obtain ⟨s₂, h₂⟩ := ih (s := s₁) (hdb₁ ▸ hs)
    exact ⟨s₂, Effect.each_cons_eq_ok.mpr ⟨_, s₁, _, h₁, h₂, rfl⟩⟩

/-- A transaction without faults whose body returns, returns. -/
theorem transact_of_ok {α : Type} {body : EStateM PyError Session α} {s : Session} {a : α}
    (h : ∀ s₁ : Session, s₁.connection.database = s.committed → ∃ s₂, body s₁ = .ok a s₂) :
    ∃ s', transact Faults.none body s = .ok a s' := by
  obtain ⟨s₂, h₂⟩ := h { s with connection := ⟨s.committed, 1⟩ } rfl
  refine ⟨⟨s₂.connection.database, { s₂.connection with statements := s₂.connection.statements + 1 },
    s₂.memory⟩, ?_⟩
  unfold transact
  have hconnect : connect Faults.none s = .ok () { s with connection := ⟨s.committed, 1⟩ } := rfl
  rw [Effect.bind_of_ok hconnect, Effect.bind_of_ok (Effect.get_apply _), Effect.tryCatch_apply,
    Effect.bind_of_ok h₂]
  rfl

/-- The same call, made at another time. -/
def resubmit (again : DateTime) : Call → Call
  | .execute decision key _ => .execute decision key again
  | .executeBatch decisions batchId _ => .executeBatch decisions batchId again

/-- What `execute_batch` checks before it opens the connection. -/
def Admitted : Call → Prop
  | .execute .. => True
  | .executeBatch decisions batchId _ => isBlank batchId = false ∧
      (decisions.any fun decision => !decision.approved) = false ∧
      ((Paper.members batchId decisions).map Prod.fst).Nodup

theorem admitted_of_run {call : Call} {s s' : Session} {rs : List ExecutionReceipt}
    (h : run host policy faults call s = .ok rs s') : Admitted call := by
  cases call with
  | execute decision key executedAt => trivial
  | executeBatch decisions batchId executedAt =>
    simp only [run, executeBatch] at h
    split at h
    · cases h
    rename_i hblank
    split at h
    · cases h
    rename_i happroved
    split at h
    · cases h
    rename_i hnodup
    exact ⟨by simpa using hblank, by simpa using happroved, not_not.mp hnodup⟩

variable (host policy) in
/-- A call whose keys are all bound returns their receipts. -/
theorem run_of_filed {ledger : List ExecutionReceipt} {call : Call} {rs : List ExecutionReceipt}
    (hcall : Admitted call) (h : List.Forall₂ (Filed ledger) (members call) rs) {s : Session}
    (hs : Files s.committed ledger) (again : DateTime) :
    ∃ s', run host policy Faults.none (resubmit again call) s = .ok rs s' := by
  cases call with
  | execute decision key executedAt =>
    obtain ⟨r, rest, hfiled, hrest, rfl⟩ := List.forall₂_cons_left_iff.mp h
    obtain rfl := List.forall₂_nil_left_iff.mp hrest
    have hbody : ∀ s₁ : Session, s₁.connection.database = s.committed →
        ∃ s₂, executeOne host policy Faults.none decision key again s₁ = .ok r s₂ := by
      intro s₁ hdb
      obtain ⟨s₂, h₂, -⟩ := executeOne_of_filed hfiled (hdb ▸ hs) again
      exact ⟨s₂, h₂⟩
    obtain ⟨s', hs'⟩ := transact_of_ok hbody
    refine ⟨s', ?_⟩
    simp only [resubmit, run, Effect.map_apply, execute, hs']
  | executeBatch decisions batchId executedAt =>
    obtain ⟨hblank, happroved, hnodup⟩ := hcall
    simp only [resubmit, run, executeBatch, hblank, happroved, hnodup, Bool.false_eq_true, if_false,
      not_true_eq_false]
    refine transact_of_ok fun s₁ hdb => ?_
    exact each_of_filed h (hdb ▸ hs) again

/-- **Replay returns the first receipt.** On one database with any number of engines, after any
run: if a call returns, then after any further run, whichever engines made its calls and whatever
statements failed in them, each key of the call submitted again with its decision, to any engine and
at any time, returns the receipt that was returned for it first; it returns it whenever it does
return, and it does return if no statement fails. So does the whole call. -/
theorem replay_returns_the_first_receipt (host : Host) (policy : ExecutionPolicy) (others : Others)
    (before later : List WorldInput) (i j : ℕ) (call : Call) (faults : Faults) (receipts : List ExecutionReceipt)
    (again : DateTime)
    (hfirst : ((world host policy).step ((world host policy).exec (.initial others) before)
      (.call i call faults)).2 = .ok receipts) :
    let w := (world host policy).exec (.initial others) (before ++ .call i call faults :: later)
    ((world host policy).step w (.call j (resubmit again call) Faults.none)).2 = .ok receipts ∧
    List.Forall₂ (fun m r =>
      ((world host policy).step w (.call j (.execute m.2 m.1 again) Faults.none)).2 = .ok [r] ∧
      ∀ faults' rs, ((world host policy).step w (.call j (.execute m.2 m.1 again) faults')).2 = .ok rs → rs = [r])
      (members call) receipts := by
  intro w
  obtain ⟨ledger, hbefore⟩ := (shared_initial others).exec host policy before
  obtain ⟨more, hcalled, hfiled⟩ := hbefore.step host policy (.call i call faults)
  obtain ⟨more', hlater⟩ := hcalled.exec host policy later
  have hw : Shared w (([] ++ ledger) ++ more ++ more') := by
    show Shared ((world host policy).exec (.initial others) (before ++ .call i call faults :: later)) _
    rw [Machine.exec_append]
    exact hlater
  have hbound := (hfiled i call faults receipts rfl hfirst).imp fun _ _ hr => hr.append more'
  have hadmitted : Admitted call := by
    rw [world_call_output] at hfirst
    obtain ⟨s', hrun⟩ := outcome_eq_ok.mp hfirst
    exact admitted_of_run hrun
  constructor
  · obtain ⟨s', hs'⟩ := run_of_filed host policy hadmitted hbound
      (s := Store.session ⟨w.database, w.engines j⟩) hw.files again
    rw [world_call_output]
    exact outcome_eq_ok.mpr ⟨s', hs'⟩
  · refine hbound.imp fun m r hr => ⟨?_, ?_⟩
    · have hagain : Admitted (.execute m.2 m.1 again) := trivial
      obtain ⟨s', hs'⟩ := run_of_filed host policy hagain (.cons hr .nil)
        (s := Store.session ⟨w.database, w.engines j⟩) hw.files again
      rw [world_call_output]
      exact outcome_eq_ok.mpr ⟨s', hs'⟩
    · intro faults' rs hrs
      obtain ⟨more'', -, hagain⟩ := hw.step host policy (.call j (.execute m.2 m.1 again) faults')
      obtain ⟨r', rest, hr', hrest, rfl⟩ := List.forall₂_cons_left_iff.mp (hagain j _ faults' rs rfl hrs)
      obtain rfl := List.forall₂_nil_left_iff.mp hrest
      have hsame := (hr.append more'').2.1
      rw [hr'.2.1] at hsame
      rw [Option.some.inj hsame]

theorem sampleBuy_checks : AdvisoryAction.buy ≠ .abstain ∧ "RELIANCE" ≠ "" ∧ (0 : ℚ) < 10 ∧ (0 : ℚ) < 100 := by decide

/-- Ten bought at 100. -/
def sampleBuy : Call :=
  .execute (Sample.decision "1" (Sample.intent "1" "RELIANCE" .buy 10 100 sampleBuy_checks)) "key-1" Sample.now

/-- Ten sold at 110. -/
def sampleSell : Call :=
  .execute (Sample.decision "2" (Sample.intent "2" "RELIANCE" .sell 10 110 (by decide))) "key-2" Sample.now

/-- Ten bought and a single call that sells them, on two engines: a third one still returns the
position that the first call left. -/
theorem replay_after_a_close :
    ∃ receipts,
      ((world .cpython ⟨0, 0, by decide⟩).step (.initial .sample) (.call 0 sampleBuy Faults.none)).2 = .ok receipts ∧
      ((world .cpython ⟨0, 0, by decide⟩).step
        ((world .cpython ⟨0, 0, by decide⟩).exec (.initial .sample)
          [.call 0 sampleBuy Faults.none, .call 1 sampleSell Faults.none])
        (.call 2 sampleBuy Faults.none)).2 = .ok receipts := by
  obtain ⟨receipts, hfirst⟩ := exists_of_not_raised (x := ((world .cpython ⟨0, 0, by decide⟩).step
    (.initial .sample) (.call 0 sampleBuy Faults.none)).2) (by rw [← Host.evaluated_eq]; decide +kernel)
  exact ⟨receipts, hfirst, (replay_returns_the_first_receipt .cpython ⟨0, 0, by decide⟩ .sample []
    [.call 1 sampleSell Faults.none] 0 2 sampleBuy Faults.none receipts Sample.now hfirst).1⟩

end NanoDelta.Paper.Postgres
