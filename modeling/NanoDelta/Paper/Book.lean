import NanoDelta.Library.Text
import NanoDelta.Paper.Ledger

/-!
# The ledger without caches

What the durable engine is for, said without its cache: a call is one transaction on
the database, and a new fill is applied to the position that the database holds open
for its key, or opens a position if it holds none. `book` is that machine.

An engine does the same as the book, call by call, as long as its cache is not behind:
for each member whose key is not recorded yet, if the cache holds an open position of
its market, account and symbol, the database holds one too (`Fresh`).

* `post_step`: what a new fill does to the list of positions.
* `call_refines`: a call on an engine whose cache is fresh for it does what the book does.
-/

namespace NanoDelta.Paper.Postgres

open Library Risk

variable (host : Host) (policy : ExecutionPolicy) (faults : Faults)

/-! ### The machine -/

/-- A member of a call, without a cache. -/
def post (decision : RiskDecision) (idempotencyKey : String) (executedAt : DateTime) :
    EStateM PyError Connection ExecutionReceipt :=
  if isBlank idempotencyKey then throw (.valueError "idempotency_key is required")
  else do
    lockPosition faults
    let existing ← read faults (loadReceipt idempotencyKey)
    match existing with
    | some existing =>
      if existing.order.decisionId ≠ decision.decisionId then
        throw (.valueError "idempotency key is already bound to another decision")
      else return existing
    | none =>
      if decision.approved = false then
        throw (.permissionError "paper execution requires an approved risk decision")
      else do
        let current ← read faults (loadOpenPosition (positionKey decision.intent))
        let executedAt ← Effect.ofExcept (utc executedAt "executed_at")
        let receipt := newReceipt host policy current decision idempotencyKey executedAt
        persist host faults decision idempotencyKey receipt (priorRealized current)
        return receipt

/-- One transaction: open the connection, run the body, commit. -/
def atomically {α : Type} (body : EStateM PyError Connection α) : EStateM PyError Connection α := do
  perform faults
  let a ← body
  perform faults
  return a

/-- A call, as a transaction. -/
def postCall : Call → EStateM PyError Connection (List ExecutionReceipt)
  | .execute decision key executedAt =>
    (fun r => [r]) <$> atomically faults (post host policy faults decision key executedAt)
  | .executeBatch decisions batchId executedAt =>
    if isBlank batchId then throw (.valueError "batch_id is required")
    else if decisions.any fun decision => !decision.approved then
      throw (.permissionError "every batch risk decision must be approved")
    else if ¬ ((Paper.members batchId decisions).map Prod.fst).Nodup then
      throw (.valueError "batch contains duplicate risk decisions")
    else atomically faults
      (Effect.each (fun m => post host policy faults m.2 m.1 executedAt) (Paper.members batchId decisions))

/-- The database after a transaction. -/
def committedOf {α : Type} (db : Database) : EStateM.Result PyError Connection α → Database
  | .ok _ c => c.database
  | .error _ _ => db

/-- The ledger without caches, as a machine on the database. -/
def book : Machine Database Input (Except PyError (List ExecutionReceipt)) where
  step db
    | .call call faults =>
      (committedOf db (postCall host policy faults call ⟨db, 0⟩), outcome (postCall host policy faults call ⟨db, 0⟩))
    | .restart => (db, .ok [])
    | .others tables => (tables.into db, .ok [])

variable {host policy faults}

/-! ### Engines with a fresh cache -/

/-- The cache is not behind for a key: an open position it holds is open in the database too. -/
def Fresh (db : Database) (memory : PaperExecutionEngine) (key : PositionKey) : Prop :=
  ∀ position, memory.positions.get? key = some position → position.state = .opened →
    ∃ row ∈ db.positions, row.isOpen key = true

variable (host policy) in
/-- With a fresh cache, the position that a new fill is applied to is the one that the database
holds open, or none. -/
theorem newReceipt_hydrate {db : Database} {memory : PaperExecutionEngine} {decision : RiskDecision}
    {current : Option PaperPosition} (hfresh : Fresh db memory (positionKey decision.intent))
    (hopen : loadOpenPosition (positionKey decision.intent) db = .ok current) (key : String) (t : Instant) :
    newReceipt host policy ((hydrate (positionKey decision.intent) current memory).positions.get?
      (positionKey decision.intent)) decision key t = newReceipt host policy current decision key t := by
  cases current with
  | some p => rw [hydrate, Dict.get?_set_self]
  | none =>
    rw [hydrate]
    cases hget : memory.positions.get? (positionKey decision.intent) with
    | none => rfl
    | some p =>
      -- a cached position that the database does not hold open is closed
      cases hstate : p.state with
      | closed => simp [newReceipt, applyFill, hstate]
      | opened =>
        obtain ⟨row, hrow, hopenrow⟩ := hfresh p hget hstate
        unfold loadOpenPosition at hopen
        cases hfind : db.positions.find? (PositionRow.isOpen (positionKey decision.intent)) with
        | none => exact absurd hopenrow (List.find?_eq_none.mp hfind row hrow)
        | some row' =>
          rw [hfind] at hopen
          obtain ⟨p', -, hp'⟩ := Effect.except_bind_eq_ok.mp hopen
          cases hp'

/-- **A member on a fresh cache does what the book does.** -/
theorem executeOne_refines {decision : RiskDecision} {key : String} {s : Session}
    (hcached : loadReceipt key s.connection.database = .ok none → s.memory.receipts.get? key = none)
    (hfresh : loadReceipt key s.connection.database = .ok none →
      Fresh s.connection.database s.memory (positionKey decision.intent)) (executedAt : DateTime) :
    Effect.project Session.connection (executeOne host policy faults decision key executedAt s) =
      post host policy faults decision key executedAt s.connection := by
  unfold executeOne post
  by_cases hblank : isBlank key = true
  · simp only [hblank, if_true]
    rfl
  simp only [hblank, Bool.false_eq_true, if_false]
  refine Effect.project_bind (Effect.project_focus (fun _ _ => rfl) _ s) ?_
  intro _ s₁ hs₁
  obtain ⟨c₁, hc₁, rfl⟩ := onConnection_eq_ok.mp hs₁
  obtain ⟨-, rfl⟩ := perform_eq_ok.mp hc₁
  refine Effect.project_bind (Effect.project_focus (fun _ _ => rfl) _ _) ?_
  intro existing s₂ hs₂
  obtain ⟨c₂, hc₂, rfl⟩ := onConnection_eq_ok.mp hs₂
  obtain ⟨-, hload, rfl⟩ := read_eq_ok.mp hc₂
  cases existing with
  | some existing =>
    simp only
    split
    · rfl
    · rfl
  | none =>
    simp only
    split
    · rfl
    rename_i happroved
    have hmiss := hcached hload
    refine Effect.project_bind (Effect.project_focus (fun _ _ => rfl) _ _) ?_
    intro current s₃ hs₃
    obtain ⟨c₃, hc₃, rfl⟩ := onConnection_eq_ok.mp hs₃
    obtain ⟨-, hopen, rfl⟩ := read_eq_ok.mp hc₃
    have hmiss' : (hydrate (positionKey decision.intent) current s.memory).receipts.get? key = none := by
      cases current <;> exact hmiss
    have hexecute := execute_of_new host policy (s := hydrate (positionKey decision.intent) current s.memory)
      (by simpa using hblank) hmiss' (by simpa using happroved) executedAt
    have hreceipt := newReceipt_hydrate host policy (hfresh hload) hopen key
    rw [Effect.bind_of_ok (x := onMemory (modify (hydrate (positionKey decision.intent) current))) rfl]
    cases hutc : utc executedAt "executed_at" with
    | error e =>
      rw [hutc] at hexecute
      rw [Effect.bind_of_error (x := onMemory (Paper.execute host policy decision key executedAt))
        (Effect.focus_of_error hexecute)]
      rfl
    | ok t =>
      simp only [hutc, hreceipt t] at hexecute
      rw [Effect.bind_of_ok (x := onMemory (Paper.execute host policy decision key executedAt))
        (Effect.focus_of_ok hexecute), Effect.ofExcept_ok, pure_bind]
      refine Effect.project_bind (Effect.project_focus (fun _ _ => rfl) _ _) ?_
      intro _ s₄ _
      rfl

/-- A member that returned, on the book: it found its receipt, or it wrote a new one. -/
theorem post_cases {decision : RiskDecision} {key : String} {executedAt : DateTime} {c c' : Connection}
    {r : ExecutionReceipt} {ledger : List ExecutionReceipt} (hfiles : Files c.database ledger)
    (h : post host policy faults decision key executedAt c = .ok r c') :
    isBlank key = false ∧ r.order.decisionId = decision.decisionId ∧
    ((receiptOf ledger key = some r ∧ c'.database = c.database) ∨
      (receiptOf ledger key = none ∧ decision.approved = true ∧
        ∃ current t c₁, loadOpenPosition (positionKey decision.intent) c.database = .ok current ∧
          executedAt = .aware t ∧ r = newReceipt host policy current decision key t ∧ c₁.database = c.database ∧
          persist host faults decision key r (priorRealized current) c₁ = .ok () c')) := by
  unfold post at h
  split at h
  · cases h
  rename_i hblank
  refine ⟨by simpa using hblank, ?_⟩
  obtain ⟨_, c₁, hc₁, h₁⟩ := Effect.bind_eq_ok.mp h
  obtain ⟨-, rfl⟩ := perform_eq_ok.mp hc₁
  obtain ⟨existing, c₂, hc₂, h₂⟩ := Effect.bind_eq_ok.mp h₁
  obtain ⟨-, hload, rfl⟩ := read_eq_ok.mp hc₂
  have hfound : receiptOf ledger key = existing := by
    rw [loadReceipt_files hfiles] at hload
    exact Except.ok.inj hload
  cases existing with
  | some existing =>
    simp only at h₂
    split at h₂
    · cases h₂
    · rename_i hid
      cases h₂
      exact ⟨not_not.mp hid, Or.inl ⟨hfound, rfl⟩⟩
  | none =>
    simp only at h₂
    split at h₂
    · cases h₂
    rename_i happroved
    obtain ⟨current, c₃, hc₃, h₃⟩ := Effect.bind_eq_ok.mp h₂
    obtain ⟨-, hopen, rfl⟩ := read_eq_ok.mp hc₃
    obtain ⟨t, c₄, hc₄, h₄⟩ := Effect.bind_eq_ok.mp h₃
    obtain ⟨hutc, rfl⟩ := Effect.ofExcept_eq_ok.mp hc₄
    obtain ⟨⟨⟩, c₅, hpersist, h₅⟩ := Effect.bind_eq_ok.mp h₄
    cases h₅
    have htime : executedAt = .aware t := by
      cases executedAt with
      | naive wall => cases hutc
      | aware t' =>
        cases hutc
        rfl
    refine ⟨rfl, Or.inr ⟨hfound, by simpa using happroved, current, t, _, hopen, htime, rfl, ?_, hpersist⟩⟩
    rfl

/-- A member that returned, on the book, and what its writes did. -/
theorem post_ok {decision : RiskDecision} {key : String} {executedAt : DateTime} {c c' : Connection}
    {r : ExecutionReceipt} {ledger : List ExecutionReceipt} (hfiles : Files c.database ledger)
    (h : post host policy faults decision key executedAt c = .ok r c') :
    isBlank key = false ∧ r.order.decisionId = decision.decisionId ∧
    ((receiptOf ledger key = some r ∧ c'.database = c.database) ∨
      (receiptOf ledger key = none ∧ decision.approved = true ∧
        ∃ current t, loadOpenPosition (positionKey decision.intent) c.database = .ok current ∧
          r = newReceipt host policy current decision key t ∧
          Recorded host c.database c'.database key r (priorRealized current))) := by
  obtain ⟨hblank, hid, hfound | ⟨hnew, happroved, current, t, c₁, hopen, -, hr, hdb, hpersist⟩⟩ := post_cases hfiles h
  · exact ⟨hblank, hid, Or.inl hfound⟩
  · have hrec := (recorded_of_persist hpersist).1
    rw [hdb] at hrec
    exact ⟨hblank, hid, Or.inr ⟨hnew, happroved, current, t, hopen, hr, hrec⟩⟩

/-! ### The positions of the book -/

/-- The table of positions holds the rows of a list of positions: no id occurs twice, and each id was
made from the fill that opened the position, a fill of the ledger. -/
structure Books (host : Host) (db : Database) (ledger : List ExecutionReceipt) (positions : List PaperPosition) :
    Prop where
  /-- The rows. -/
  rows : db.positions = positions.map positionRow
  /-- No id occurs twice. -/
  ids : (positions.map PaperPosition.positionId).Nodup
  /-- Each id was made from a fill of the ledger. -/
  opened : ∀ p ∈ positions, ∃ r ∈ ledger, ∃ text, p.positionId = host.sha256 (text ++ "|" ++ r.fill.fillId)
  /-- The ids of fills are digests. -/
  digests : ∀ r ∈ ledger, ∃ text, r.fill.fillId = host.sha256 text

/-- The positions after a new fill: the open position of its key is replaced, or a new one is
appended. -/
def positionsAfter (positions : List PaperPosition) (current : Option PaperPosition) (new : PaperPosition) :
    List PaperPosition :=
  match current with
  | some p => positions.map fun q => if q.positionId = p.positionId then new else q
  | none => positions ++ [new]

theorem mem_of_openIn {positions : List PaperPosition} {key : PositionKey} {p : PaperPosition}
    (h : openIn positions key = some p) : p ∈ positions ∧ p.key = key ∧ p.state = .opened := by
  refine ⟨List.mem_of_find?_eq_some h, ?_⟩
  simpa using List.find?_some h

/-- Netting a fill keeps what a position is of, and its row is the old row updated. -/
theorem positionRow_netFill (p : PaperPosition) (decision : RiskDecision) (fill : PaperFill) :
    (positionRow p).update (positionRow (netFill host p decision fill)) =
      positionRow (netFill host p decision fill) := rfl

/-- **What a new fill does to the positions**: the open position of its key is replaced by the netted
one, or if there is none, a position with a new id is appended. -/
theorem post_step (hhost : Text.CollisionFree host.sha256) {db db' : Database} {ledger : List ExecutionReceipt}
    {positions : List PaperPosition} (hbooks : Books host db ledger positions) {decision : RiskDecision}
    {key key' : String} {t : Instant} {r : ExecutionReceipt}
    (hr : r = newReceipt host policy (openIn positions (positionKey decision.intent)) decision key t)
    (hnew : ∀ r' ∈ ledger, r'.fill.fillId ≠ r.fill.fillId) {prior : ℚ} (hrec : Recorded host db db' key' r prior) :
    Books host db' (ledger ++ [r])
      (positionsAfter positions (openIn positions (positionKey decision.intent)) r.position) ∧
    (∀ p ∈ openIn positions (positionKey decision.intent), r.position.positionId = p.positionId) ∧
    (openIn positions (positionKey decision.intent) = none →
      ∀ p ∈ positions, p.positionId ≠ r.position.positionId) := by
  have hdigests : ∀ r' ∈ ledger ++ [r], ∃ text, r'.fill.fillId = host.sha256 text := by
    intro r' hr'
    rcases List.mem_append.mp hr' with hr' | hr'
    · exact hbooks.digests r' hr'
    · rw [List.mem_singleton.mp hr', hr]
      exact ⟨_, rfl⟩
  cases hopen : openIn positions (positionKey decision.intent) with
  | some p =>
    obtain ⟨hp, hkey, hstate⟩ := mem_of_openIn hopen
    have hpos : r.position = netFill host p decision r.fill := by
      rw [hr, hopen]
      simp [newReceipt, applyFill, hstate]
    have hid : r.position.positionId = p.positionId := by rw [hpos]; rfl
    refine ⟨⟨?_, ?_, ?_, hdigests⟩, ?_, ?_⟩
    · -- the row of the position is updated, and the others are left
      rw [hrec.positions, hbooks.rows, Table.upserted_of_taken]
      · simp only [positionsAfter, List.map_map]
        refine List.map_congr_left ?_
        intro q hq
        simp only [Function.comp]
        by_cases hqp : q.positionId = p.positionId
        · obtain rfl : q = p := Table.eq_of_key_eq hbooks.ids hq hp hqp
          rw [if_pos (show (positionRow q).positionId = r.position.positionId from hid.symm), if_pos rfl, hpos]
          exact positionRow_netFill q decision r.fill
        · rw [if_neg hqp, if_neg]
          intro he
          exact hqp ((show q.positionId = r.position.positionId from he).trans hid)
      · exact ⟨positionRow p, List.mem_map.mpr ⟨p, hp, rfl⟩, hid.symm⟩
    · have hids : (positionsAfter positions (some p) r.position).map PaperPosition.positionId =
          positions.map PaperPosition.positionId := by
        simp only [positionsAfter, List.map_map]
        refine List.map_congr_left ?_
        intro q _
        by_cases hqp : q.positionId = p.positionId <;> simp [hqp, hid]
      rw [hids]
      exact hbooks.ids
    · intro q hq
      simp only [positionsAfter, List.mem_map] at hq
      obtain ⟨q', hq', rfl⟩ := hq
      obtain ⟨r', hr', text, htext⟩ := hbooks.opened q' hq'
      refine ⟨r', List.mem_append_left _ hr', text, ?_⟩
      split
      · rename_i he
        rw [hid, ← he, htext]
      · exact htext
    · intro q hq
      rw [hid, Option.mem_some_iff.mp hq]
    · intro h
      cases h
  | none =>
    have hpos : r.position = openPosition host decision r.fill := by
      rw [hr, hopen]
      rfl
    obtain ⟨text, htext⟩ : ∃ text, r.position.positionId = host.sha256 (text ++ "|" ++ r.fill.fillId) := by
      rw [hpos]
      exact ⟨_, rfl⟩
    have hfree : ∀ p ∈ positions, p.positionId ≠ r.position.positionId := by
      intro p hp he
      obtain ⟨r', hr', text', htext'⟩ := hbooks.opened p hp
      obtain ⟨u, hu⟩ := hbooks.digests r' hr'
      obtain ⟨u', hu'⟩ := hdigests r (by simp)
      rw [htext', htext, hu, hu'] at he
      refine hnew r' hr' ?_
      rw [hu, hu']
      exact (hhost.last he).2
    refine ⟨⟨?_, ?_, ?_, hdigests⟩, ?_, ?_⟩
    · rw [hrec.positions, hbooks.rows, Table.upserted_of_free]
      · simp [positionsAfter]
      · intro row hrow
        obtain ⟨p, hp, rfl⟩ := List.mem_map.mp hrow
        exact hfree p hp
    · exact Table.nodup_concat hbooks.ids hfree
    · intro q hq
      rcases List.mem_append.mp hq with hq | hq
      · obtain ⟨r', hr', text', htext'⟩ := hbooks.opened q hq
        exact ⟨r', List.mem_append_left _ hr', text', htext'⟩
      · rw [List.mem_singleton.mp hq]
        exact ⟨r, by simp, text, htext⟩
    · intro q hq
      cases hq
    · exact fun _ => hfree

/-! ### Calls -/

variable (faults) in
/-- A transaction of an engine does what the transaction of the book does, if their bodies agree. -/
theorem transact_refines {α : Type} {body : EStateM PyError Session α} {body' : EStateM PyError Connection α}
    {s : Session} (hkeeps : Effect.Keeps Session.committed body)
    (hbody : ∀ s₁ : Session, s₁.connection.database = s.committed → s₁.memory = s.memory →
      Effect.project Session.connection (body s₁) = body' s₁.connection) :
    outcome (transact faults body s) = outcome (atomically faults body' ⟨s.committed, 0⟩) ∧
      (Effect.final (transact faults body s)).committed =
        committedOf s.committed (atomically faults body' ⟨s.committed, 0⟩) := by
  unfold transact atomically
  cases hf : faults 0 with
  | some e =>
    have hperform : perform faults ⟨s.committed, 0⟩ = .error e ⟨s.committed, 1⟩ := by
      simp [perform, Effect.bind_apply, hf]
    have hconnect : connect faults s = .error e { s with connection := ⟨s.committed, 1⟩ } := by
      rw [connect, Effect.bind_of_ok (Effect.modify_apply _ s)]
      exact Effect.focus_of_error hperform
    rw [Effect.bind_of_error hconnect, Effect.bind_of_error hperform]
    exact ⟨rfl, rfl⟩
  | none =>
    have hperform : perform faults ⟨s.committed, 0⟩ = .ok () ⟨s.committed, 1⟩ := perform_eq_ok.mpr ⟨hf, rfl⟩
    have hconnect : connect faults s = .ok () { s with connection := ⟨s.committed, 1⟩ } := by
      rw [connect, Effect.bind_of_ok (Effect.modify_apply _ s)]
      exact Effect.focus_of_ok hperform
    rw [Effect.bind_of_ok hconnect, Effect.bind_of_ok hperform, Effect.bind_of_ok (Effect.get_apply _),
      Effect.tryCatch_apply]
    have hagree := hbody { s with connection := ⟨s.committed, 1⟩ } rfl rfl
    cases hrun : body { s with connection := ⟨s.committed, 1⟩ } with
    | error e s₂ =>
      rw [hrun] at hagree
      rw [Effect.bind_of_error hrun, Effect.bind_of_error hagree.symm]
      have hcommitted := hkeeps.of_error hrun
      exact ⟨rfl, hcommitted⟩
    | ok a s₂ =>
      rw [hrun] at hagree
      rw [Effect.bind_of_ok hrun, Effect.bind_of_ok hagree.symm]
      have hcommitted := hkeeps.of_ok hrun
      cases hf₂ : faults s₂.connection.statements with
      | some e =>
        have hperform₂ : perform faults s₂.connection =
            .error e { s₂.connection with statements := s₂.connection.statements + 1 } := by
          simp [perform, Effect.bind_apply, hf₂]
        have hcommit : commit faults s₂ = .error e
            { s₂ with connection := { s₂.connection with statements := s₂.connection.statements + 1 } } := by
          rw [commit]
          exact Effect.bind_of_error (Effect.focus_of_error hperform₂) _
        rw [Effect.bind_of_error hcommit, Effect.bind_of_error hperform₂]
        exact ⟨rfl, hcommitted⟩
      | none =>
        have hperform₂ : perform faults s₂.connection =
            .ok () { s₂.connection with statements := s₂.connection.statements + 1 } :=
          perform_eq_ok.mpr ⟨hf₂, rfl⟩
        have hcommit : commit faults s₂ = .ok ()
            { s₂ with
              committed := s₂.connection.database
              connection := { s₂.connection with statements := s₂.connection.statements + 1 } } := by
          have hfocus : onConnection (perform faults) s₂ = .ok ()
              { s₂ with connection := { s₂.connection with statements := s₂.connection.statements + 1 } } :=
            Effect.focus_of_ok hperform₂
          rw [commit, Effect.bind_of_ok hfocus]
          rfl
        rw [Effect.bind_of_ok hcommit, Effect.bind_of_ok hperform₂]
        exact ⟨rfl, rfl⟩

theorem outcome_map {σ α β : Type} (f : α → β) (x : EStateM PyError σ α) (s : σ) :
    outcome ((f <$> x) s) = (outcome (x s)).map f := by
  rw [Effect.map_apply]
  cases x s <;> rfl

theorem final_map {σ α β : Type} (f : α → β) (x : EStateM PyError σ α) (s : σ) :
    Effect.final ((f <$> x) s) = Effect.final (x s) := by
  rw [Effect.map_apply]
  cases x s <;> rfl

theorem committedOf_map {α β : Type} (db : Database) (f : α → β) (x : EStateM PyError Connection α)
    (c : Connection) : committedOf db ((f <$> x) c) = committedOf db (x c) := by
  rw [Effect.map_apply]
  cases x c <;> rfl

/-- The database and the cache belong to the ledger and its positions. -/
structure Tracks (host : Host) (db : Database) (memory : PaperExecutionEngine) (ledger : List ExecutionReceipt)
    (positions : List PaperPosition) : Prop where
  files : Files db ledger
  cached : Cached memory ledger
  books : Books host db ledger positions

/-- A member on a fresh cache: the ledger and the positions stay in step, and what was fresh stays
fresh. -/
theorem executeOne_tracks (hhost : Text.CollisionFree host.sha256) {m : String × RiskDecision}
    {executedAt : DateTime} {s s' : Session} {r : ExecutionReceipt} {ledger : List ExecutionReceipt}
    {positions : List PaperPosition} (hs : Tracks host s.connection.database s.memory ledger positions)
    (hfresh : receiptOf ledger m.1 = none → Fresh s.connection.database s.memory (positionKey m.2.intent))
    (h : executeOne host policy faults m.2 m.1 executedAt s = .ok r s') :
    ∃ more positions', Tracks host s'.connection.database s'.memory (ledger ++ more) positions' ∧
      ∀ key, Fresh s.connection.database s.memory key → Fresh s'.connection.database s'.memory key := by
  obtain ⟨-, -, ⟨hr, hdb, hmem⟩ | ⟨hnew, -, hkey, current, t, hopen, hreceipt, hmem, hrec, -⟩⟩ :=
    executeOne_ledger hs.files hs.cached h
  · refine ⟨[], positions, ?_, ?_⟩
    · rw [List.append_nil, hdb, hmem]
      exact ⟨hs.files, hs.cached.set hr, hs.books⟩
    · rw [hdb, hmem]
      exact fun key hk => hk
  · rw [newReceipt_hydrate host policy (hfresh hnew) hopen] at hreceipt
    have hcur : ∀ p ∈ current, p.key = positionKey m.2.intent := by
      rintro p rfl
      exact (loadOpenPosition_key hopen).1
    obtain rfl : openIn positions (positionKey m.2.intent) = current := by
      rw [loadOpenPosition_rows hs.books.rows] at hopen
      exact Except.ok.inj hopen
    have hposition : r.position.key = positionKey m.2.intent := by
      rw [hreceipt]
      exact key_applyFill hcur _
    rw [← hkey] at hnew hrec hmem
    obtain ⟨hfiles, hfill⟩ := files_of_recorded hs.files hnew (by rw [hreceipt]; rfl)
      (hposition.trans (by rw [hreceipt]; rfl)) hrec
    obtain ⟨hbooks, -, -⟩ := post_step hhost hs.books hreceipt hfill hrec
    refine ⟨[r], _, ⟨hfiles, ?_, hbooks⟩, ?_⟩
    · rw [hmem]
      exact ((hs.cached.hydrate hcur).append [r]).record (receiptOf_concat hnew) hposition
    · intro key hk p hget hstate
      rw [hmem] at hget
      simp only [PaperExecutionEngine.record, Dict.get?_set] at hget
      rw [hbooks.rows]
      split at hget
      · -- the key of the member: its position is the new one
        rename_i he
        cases hget
        refine ⟨positionRow r.position, List.mem_map.mpr ⟨r.position, ?_, rfl⟩, ?_⟩
        · cases hcase : openIn positions (positionKey m.2.intent) with
          | none => simp [positionsAfter]
          | some q => exact List.mem_map.mpr ⟨q, (mem_of_openIn hcase).1, by rw [if_pos rfl]⟩
        · rw [isOpen_positionRow, he]
          exact decide_eq_true ⟨hposition, hstate⟩
      · -- another key: its open position has another id
        rename_i hne
        have hget' : s.memory.positions.get? key = some p := by
          cases hcase : openIn positions (positionKey m.2.intent) with
          | none => rw [hcase] at hget; exact hget
          | some q =>
            rw [hcase] at hget
            simpa [hydrate, Dict.get?_set, hne] using hget
        obtain ⟨row, hrow, hopenrow⟩ := hk p hget' hstate
        rw [hs.books.rows] at hrow
        obtain ⟨q, hq, rfl⟩ := List.mem_map.mp hrow
        refine ⟨positionRow q, List.mem_map.mpr ⟨q, ?_, rfl⟩, hopenrow⟩
        rw [isOpen_positionRow] at hopenrow
        have hqkey := (of_decide_eq_true hopenrow).1
        cases hcase : openIn positions (positionKey m.2.intent) with
        | none => exact List.mem_append_left _ hq
        | some q' =>
          refine List.mem_map.mpr ⟨q, hq, ?_⟩
          rw [if_neg]
          intro hid
          obtain ⟨hq', hkey', -⟩ := mem_of_openIn hcase
          obtain rfl := Table.eq_of_key_eq hs.books.ids hq hq' hid
          exact hne (hqkey.symm.trans hkey')

/-- The state of a loop over members on a cache that is fresh for those still to come. -/
def Ready (host : Host) (ms : List (String × RiskDecision)) (s : Session) : Prop :=
  ∃ ledger positions, Tracks host s.connection.database s.memory ledger positions ∧
    ∀ m ∈ ms, receiptOf ledger m.1 = none → Fresh s.connection.database s.memory (positionKey m.2.intent)

theorem Ready.refines {m : String × RiskDecision} {ms : List (String × RiskDecision)} {s : Session}
    (h : Ready host (m :: ms) s) (executedAt : DateTime) :
    Effect.project Session.connection (executeOne host policy faults m.2 m.1 executedAt s) =
      post host policy faults m.2 m.1 executedAt s.connection := by
  obtain ⟨ledger, positions, htracks, hfresh⟩ := h
  have hload : loadReceipt m.1 s.connection.database = .ok none → receiptOf ledger m.1 = none := by
    rw [loadReceipt_files htracks.files]
    exact Except.ok.inj
  refine executeOne_refines ?_ ?_ executedAt
  · intro hnone
    cases hget : s.memory.receipts.get? m.1 with
    | none => rfl
    | some r =>
      have hr := htracks.cached.receipts m.1 r hget
      rw [hload hnone] at hr
      cases hr
  · exact fun hnone => hfresh m (List.mem_cons_self ..) (hload hnone)

theorem Ready.next (hhost : Text.CollisionFree host.sha256) {m : String × RiskDecision}
    {ms : List (String × RiskDecision)} {s s' : Session} {executedAt : DateTime} {r : ExecutionReceipt}
    (h : Ready host (m :: ms) s) (hx : executeOne host policy faults m.2 m.1 executedAt s = .ok r s') :
    Ready host ms s' := by
  obtain ⟨ledger, positions, htracks, hfresh⟩ := h
  obtain ⟨more, positions', htracks', hkeep⟩ :=
    executeOne_tracks hhost htracks (hfresh m (List.mem_cons_self ..)) hx
  refine ⟨ledger ++ more, positions', htracks', ?_⟩
  intro m' hm' hnone
  exact hkeep _ (hfresh m' (List.mem_cons_of_mem _ hm') (receiptOf_eq_none_of_append hnone))

/-- A loop over members on a fresh cache: the ledger and the positions stay in step, and what was
fresh stays fresh. -/
theorem each_tracks (hhost : Text.CollisionFree host.sha256) {ms : List (String × RiskDecision)}
    {executedAt : DateTime} {s s' : Session} {rs : List ExecutionReceipt} {ledger : List ExecutionReceipt}
    {positions : List PaperPosition} (hs : Tracks host s.connection.database s.memory ledger positions)
    (hfresh : ∀ m ∈ ms, receiptOf ledger m.1 = none →
      Fresh s.connection.database s.memory (positionKey m.2.intent))
    (h : Effect.each (fun m => executeOne host policy faults m.2 m.1 executedAt) ms s = .ok rs s') :
    ∃ more positions', Tracks host s'.connection.database s'.memory (ledger ++ more) positions' ∧
      ∀ key, Fresh s.connection.database s.memory key → Fresh s'.connection.database s'.memory key := by
  induction ms generalizing s rs ledger positions with
  | nil =>
    obtain ⟨-, rfl⟩ := Effect.each_nil_eq_ok.mp h
    exact ⟨[], positions, by rwa [List.append_nil], fun _ hk => hk⟩
  | cons m ms ih =>
    obtain ⟨r, s₁, rs', hr, hrs, rfl⟩ := Effect.each_cons_eq_ok.mp h
    obtain ⟨more, positions₁, hs₁, hkeep⟩ := executeOne_tracks hhost hs (hfresh m (List.mem_cons_self ..)) hr
    have hfresh₁ : ∀ m' ∈ ms, receiptOf (ledger ++ more) m'.1 = none →
        Fresh s₁.connection.database s₁.memory (positionKey m'.2.intent) := by
      intro m' hm' hnone
      exact hkeep _ (hfresh m' (List.mem_cons_of_mem _ hm') (receiptOf_eq_none_of_append hnone))
    obtain ⟨more', positions₂, hs₂, hkeep'⟩ := ih hs₁ hfresh₁ hrs
    rw [List.append_assoc] at hs₂
    exact ⟨more ++ more', positions₂, hs₂, fun key hk => hkeep' key (hkeep key hk)⟩

/-- A loop over members on a fresh cache does what the book does. -/
theorem each_refines (hhost : Text.CollisionFree host.sha256) {ms : List (String × RiskDecision)} {s : Session}
    (hs : Ready host ms s) (executedAt : DateTime) :
    Effect.project Session.connection
      (Effect.each (fun m => executeOne host policy faults m.2 m.1 executedAt) ms s) =
    Effect.each (fun m => post host policy faults m.2 m.1 executedAt) ms s.connection := by
  refine Effect.project_each (P := Ready host) ?_ ?_ hs
  · exact fun m ms s₂ hready => hready.refines executedAt
  · exact fun m ms s₂ r s₃ hready hx => hready.next hhost hx

variable (policy faults) in
/-- A call on a fresh cache returns, raises and commits what the transaction of the book does. -/
theorem run_refines (hhost : Text.CollisionFree host.sha256) (call : Call) {s : Session}
    (hs : ∀ s₁ : Session, s₁.connection.database = s.committed → s₁.memory = s.memory →
      Ready host (members call) s₁) :
    outcome (run host policy faults call s) = outcome (postCall host policy faults call ⟨s.committed, 0⟩) ∧
      (Effect.final (run host policy faults call s)).committed =
        committedOf s.committed (postCall host policy faults call ⟨s.committed, 0⟩) := by
  cases call with
  | execute decision key executedAt =>
    have hkeeps : Effect.Keeps Session.committed (executeOne host policy faults decision key executedAt) :=
      keeps_executeOne decision key executedAt
    obtain ⟨hout, hdb⟩ := transact_refines faults hkeeps
      fun s₁ hdb hmem => Ready.refines (hs s₁ hdb hmem) executedAt
    simp only [run, postCall, execute, outcome_map, final_map, committedOf_map, hout, hdb, true_and]
  | executeBatch decisions batchId executedAt =>
    simp only [run, postCall, executeBatch]
    split
    · exact ⟨rfl, rfl⟩
    · split
      · exact ⟨rfl, rfl⟩
      · split
        · exact ⟨rfl, rfl⟩
        · exact transact_refines faults (keeps_members _ executedAt)
            (fun s₁ hdb hmem => each_refines hhost (hs s₁ hdb hmem) executedAt)

variable (policy faults) in
/-- **A call on a fresh cache does what the book does**, and what was fresh stays fresh. -/
theorem call_refines (hhost : Text.CollisionFree host.sha256) (call : Call) {s : Store}
    {ledger : List ExecutionReceipt} {positions : List PaperPosition}
    (hs : Tracks host s.database s.memory ledger positions)
    (hfresh : ∀ m ∈ members call, receiptOf ledger m.1 = none →
      Fresh s.database s.memory (positionKey m.2.intent)) :
    let next := (engine host policy).step s (.call call faults)
    let next' := (book host policy).step s.database (.call call faults)
    next.2 = next'.2 ∧ next.1.database = next'.1 ∧
    ∃ more positions', Tracks host next.1.database next.1.memory (ledger ++ more) positions' ∧
      ∀ key, Fresh s.database s.memory key → Fresh next.1.database next.1.memory key := by
  obtain ⟨hout, hdb⟩ := run_refines policy faults hhost call (s := s.session)
    (fun s₁ hdb hmem => ⟨ledger, positions, by rw [hdb, hmem]; exact hs, by rw [hdb, hmem]; exact hfresh⟩)
  refine ⟨hout, hdb, ?_⟩
  simp only [engine]
  cases hrun : run host policy faults call s.session with
  | error e s' =>
    have hstore : s'.store = s := run_error hrun
    refine ⟨[], positions, ?_, ?_⟩
    · rw [Effect.final_error, hstore, List.append_nil]
      exact hs
    · rw [Effect.final_error, hstore]
      exact fun _ hk => hk
  | ok rs s' =>
    obtain ⟨executedAt, s₁, s₂, hrs, hdb₁, hmem₁, hdb₂, hmem₂⟩ := run_ok hrun
    have hs₁ : Tracks host s₁.connection.database s₁.memory ledger positions := by rw [hdb₁, hmem₁]; exact hs
    obtain ⟨more, positions', htracks, hkeep⟩ :=
      each_tracks hhost hs₁ (by rw [hdb₁, hmem₁]; exact hfresh) hrs
    rw [hdb₁, hmem₁] at hkeep
    rw [← hdb₂, ← hmem₂] at htracks hkeep
    exact ⟨more, positions', htracks, hkeep⟩

end NanoDelta.Paper.Postgres
