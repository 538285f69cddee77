import NanoDelta.Paper.Ledger

/-!
# Entry orders

The orders of the paper ledger that enter a position for a candidate, and what calls of the
durable engine do to them. An order is an entry unless its key is that of a protective exit,
and its candidate is that of its decision. Entries and exits have decision ids of two forms,
which is enough to tell the candidate of an order from its decision id; positions have ids
that tell their symbol.

* `executeOne_sound`, `each_sound`: a call adds an entry order for a candidate only if one of
  its members is an entry for it, and it leaves the open positions of the symbols it does not
  trade.
-/

namespace NanoDelta.Paper.Postgres

open Library Risk

variable {host : Host} {policy : ExecutionPolicy} {faults : Faults} {account : String}

/-! ### Orders and positions -/

/-- The key is not that of a protective exit. -/
def isEntry (idempotencyKey : String) : Bool := !startsWith idempotencyKey "exit:"

/-- The entry orders of a candidate. -/
def entryOrders (db : Database) (candidateId : String) : List OrderRow :=
  db.orders.filter fun o => isEntry o.idempotencyKey = true ∧
    ∃ d ∈ db.decisions, d.decisionId = o.decisionId ∧ d.candidateId = candidateId

/-- The account holds an open NSE position in the symbol. -/
def Holds (account symbol : String) (db : Database) : Prop :=
  ∃ p ∈ db.positions, p.isOpen (.nse, account, symbol) = true

instance (account symbol : String) (db : Database) : Decidable (Holds account symbol db) := by
  unfold Holds; infer_instance

/-! ### Ids -/

/-- The id of an entry's decision for a candidate. -/
def IsEntryId (host : Host) (decisionId candidateId : String) : Prop :=
  ∃ cycleId text snapshotId evaluatedAt limits, candidateId = host.sha256 text ∧
    decisionId = stableId host
      [stableId host ["trade-intent", cycleId, candidateId], snapshotId, evaluatedAt, limits]

/-- The id of an exit's decision. -/
def IsExitId (host : Host) (decisionId : String) : Prop :=
  ∃ intentId snapshotId evaluatedAt,
    decisionId = stableId host ["protective-exit", intentId, snapshotId, evaluatedAt]

/-- The id of a position in a symbol. -/
def Named (host : Host) (account symbol positionId : String) : Prop :=
  ∃ text, positionId = stableId host ["paper-position", Market.nse.value, account, symbol, host.sha256 text]

/-- What the proofs need of the digests: no collisions, and none that reads `protective-exit`. -/
structure Digests (host : Host) : Prop where
  collisionFree : Text.CollisionFree host.sha256
  exit : ∀ text, host.sha256 text ≠ "protective-exit"

theorem first_join (x a b c : String) : "|".intercalate [x, a, b, c] = x ++ "|" ++ (a ++ "|" ++ b ++ "|" ++ c) := by
  show x ++ "|" ++ a ++ "|" ++ b ++ "|" ++ c = _
  simp only [String.append_assoc]

/-- The id of an entry's decision tells the candidate. -/
theorem IsEntryId.unique (hhost : Digests host) {decisionId candidateId candidateId' : String}
    (h : IsEntryId host decisionId candidateId) (h' : IsEntryId host decisionId candidateId') :
    candidateId = candidateId' := by
  obtain ⟨cycleId, text, snapshotId, evaluatedAt, limits, rfl, hid⟩ := h
  obtain ⟨cycleId', text', snapshotId', evaluatedAt', limits', rfl, hid'⟩ := h'
  have hjoined : host.sha256 (host.sha256 ("trade-intent" ++ "|" ++ cycleId ++ "|" ++ host.sha256 text) ++ "|" ++
      (snapshotId ++ "|" ++ evaluatedAt ++ "|" ++ limits)) =
      host.sha256 (host.sha256 ("trade-intent" ++ "|" ++ cycleId' ++ "|" ++ host.sha256 text') ++ "|" ++
        (snapshotId' ++ "|" ++ evaluatedAt' ++ "|" ++ limits')) := by
    rw [stableId, first_join] at hid hid'
    exact hid.symm.trans hid'
  exact (hhost.collisionFree.last (hhost.collisionFree.first hjoined)).2

/-- An entry and an exit have different ids. -/
theorem IsEntryId.not_exit (hhost : Digests host) {decisionId candidateId : String}
    (h : IsEntryId host decisionId candidateId) : ¬ IsExitId host decisionId := by
  rintro ⟨intentId, snapshotId', evaluatedAt', hid'⟩
  obtain ⟨cycleId, text, snapshotId, evaluatedAt, limits, rfl, hid⟩ := h
  rw [hid] at hid'
  simp only [stableId, first_join] at hid'
  have hbar : '|' ∉ ("protective-exit" : String).toList := by decide
  exact hhost.exit _ (Text.bar_append_inj (hhost.collisionFree.plain _) hbar
    (hhost.collisionFree.injective hid')).1

/-- The id of a position tells the symbol. -/
theorem Named.unique (hhost : Digests host) {symbol symbol' positionId : String}
    (h : Named host account symbol positionId) (h' : Named host account symbol' positionId) : symbol = symbol' := by
  obtain ⟨text, hid⟩ := h
  obtain ⟨text', hid'⟩ := h'
  have hjoined : host.sha256 ("paper-position" ++ "|" ++ Market.nse.value ++ "|" ++ account ++ "|" ++ symbol ++ "|" ++
      host.sha256 text) = host.sha256 ("paper-position" ++ "|" ++ Market.nse.value ++ "|" ++ account ++ "|" ++
      symbol' ++ "|" ++ host.sha256 text') := hid.symm.trans hid'
  have hleft := (hhost.collisionFree.last hjoined).1
  exact String.append_right_inj _ |>.mp hleft

/-! ### What the tables and the caches keep -/

/-- What the tables of the ledger keep. -/
structure LedgerSound (host : Host) (account : String) (db : Database) (ledger : List ExecutionReceipt) : Prop where
  files : Files db ledger
  /-- Every order has its decision. -/
  decided : ∀ o ∈ db.orders, ∃ d ∈ db.decisions, d.decisionId = o.decisionId
  /-- Every decision is of an entry or of an exit. -/
  written : ∀ d ∈ db.decisions, IsEntryId host d.decisionId d.candidateId ∨ IsExitId host d.decisionId
  /-- The ids of the positions tell their symbols. -/
  rows : ∀ p ∈ db.positions, Named host account p.symbol p.positionId
  /-- So do those in the receipts. -/
  receipts : ∀ r ∈ ledger, Named host account r.position.symbol r.position.positionId

/-- What the cache of an engine keeps. -/
structure CacheSound (host : Host) (account : String) (memory : PaperExecutionEngine)
    (ledger : List ExecutionReceipt) : Prop where
  cached : Cached memory ledger
  /-- The ids of the cached positions tell their symbols. -/
  positions : ∀ key p, memory.positions.get? key = some p → Named host account p.symbol p.positionId

theorem cacheSound_new (ledger : List ExecutionReceipt) : CacheSound host account .new ledger := by
  refine ⟨cached_new ledger, ?_⟩
  intro key p h
  cases h

theorem CacheSound.append {memory : PaperExecutionEngine} {ledger : List ExecutionReceipt}
    (h : CacheSound host account memory ledger) (more : List ExecutionReceipt) :
    CacheSound host account memory (ledger ++ more) :=
  ⟨h.cached.append more, h.positions⟩

/-- A member of a call of the session: in its market and account, and an entry or an exit. -/
structure Proper (host : Host) (account : String) (m : String × RiskDecision) : Prop where
  market : m.2.intent.market = .nse
  account : m.2.intent.accountId = account
  form : IsEntryId host m.2.decisionId m.2.intent.candidateId ∨
    (isEntry m.1 = false ∧ IsExitId host m.2.decisionId)

/-- The member is an entry for the candidate. -/
def entersFor (candidateId : String) (m : String × RiskDecision) : Bool :=
  isEntry m.1 && m.2.intent.candidateId = candidateId

/-- What the members of a call did to the entry orders and to the open positions. -/
structure Traded (account : String) (ms : List (String × RiskDecision)) (db db' : Database) : Prop where
  /-- An entry order was added for a candidate only by an entry for it. -/
  orders : ∀ candidateId, (entryOrders db' candidateId).length ≤
    (entryOrders db candidateId).length + ms.countP (entersFor candidateId)
  /-- The positions in other symbols were left. -/
  holds : ∀ symbol, (∀ m ∈ ms, m.2.intent.symbol ≠ symbol) → (Holds account symbol db' ↔ Holds account symbol db)

theorem Traded.refl (account : String) (ms : List (String × RiskDecision)) {db db' : Database}
    (horders : db'.orders = db.orders) (hdecisions : db'.decisions = db.decisions)
    (hpositions : db'.positions = db.positions) : Traded account ms db db' := by
  constructor
  · intro candidateId
    unfold entryOrders
    rw [horders, hdecisions]
    exact Nat.le_add_right _ _
  · intro symbol _
    unfold Holds
    rw [hpositions]

theorem Traded.trans {ms ms' : List (String × RiskDecision)} {db₁ db₂ db₃ : Database} (h : Traded account ms db₁ db₂)
    (h' : Traded account ms' db₂ db₃) : Traded account (ms ++ ms') db₁ db₃ := by
  constructor
  · intro candidateId
    have h₁ := h.orders candidateId
    have h₂ := h'.orders candidateId
    rw [List.countP_append]
    omega
  · intro symbol hsymbol
    rw [h'.holds symbol fun m hm => hsymbol m (List.mem_append_right _ hm),
      h.holds symbol fun m hm => hsymbol m (List.mem_append_left _ hm)]

/-! ### A new receipt -/

/-- The row of a position that is loaded. -/
theorem loadOpenPosition_row {key : PositionKey} {db : Database} {position : PaperPosition}
    (h : loadOpenPosition key db = .ok (some position)) :
    ∃ p ∈ db.positions, p.positionId = position.positionId ∧ p.symbol = position.symbol := by
  unfold loadOpenPosition at h
  cases hrow : db.positions.find? (PositionRow.isOpen key) with
  | none => rw [hrow] at h; cases h
  | some row =>
    refine ⟨row, List.mem_of_find?_eq_some hrow, ?_⟩
    have hopen := List.find?_some hrow
    obtain ⟨market, accountId, symbol⟩ := key
    obtain ⟨_, rmarket, raccount, rsymbol, _, _, _, _, _, _, closedAt, rstate, _, _, _, _, _⟩ := row
    simp only [PositionRow.isOpen, Bool.and_eq_true, decide_eq_true_eq] at hopen
    obtain ⟨⟨⟨rfl, rfl⟩, rfl⟩, rfl⟩ := hopen
    rw [hrow] at h
    cases market <;> cases closedAt <;> cases h <;> exact ⟨rfl, rfl⟩

/-- A fill of a proper member gives a position whose id tells its symbol. -/
theorem named_newReceipt {m : String × RiskDecision} (hm : Proper host account m) {current : Option PaperPosition}
    (hcurrent : ∀ p ∈ current, Named host account p.symbol p.positionId) (t : Instant) :
    Named host account (newReceipt host policy current m.2 m.1 t).position.symbol
      (newReceipt host policy current m.2 m.1 t).position.positionId := by
  have hopened : Named host account m.2.intent.symbol
      (positionIdOf host m.2.intent (newFill host policy m.2 m.1 t).fillId) := by
    refine ⟨"|".intercalate ["paper-fill", (newFill host policy m.2 m.1 t).orderId, isoformat t], ?_⟩
    rw [positionIdOf, hm.market, hm.account]
    rfl
  unfold newReceipt applyFill
  cases current with
  | none => exact hopened
  | some p =>
    simp only
    split
    · exact hopened
    · exact hcurrent p rfl

/-- The position that a member's fill is applied to. -/
theorem named_hydrate {key : PositionKey} {db : Database} {memory : PaperExecutionEngine}
    {ledger : List ExecutionReceipt} {current : Option PaperPosition} (hl : LedgerSound host account db ledger)
    (hc : CacheSound host account memory ledger) (hopen : loadOpenPosition key db = .ok current) :
    ∀ key' p, (hydrate key current memory).positions.get? key' = some p →
      Named host account p.symbol p.positionId := by
  intro key' p hget
  cases current with
  | none => exact hc.positions key' p hget
  | some q =>
    simp only [hydrate, Dict.get?_set] at hget
    split at hget
    · cases hget
      obtain ⟨row, hrow, hid, hsymbol⟩ := loadOpenPosition_row hopen
      rw [← hid, ← hsymbol]
      exact hl.rows row hrow
    · exact hc.positions key' p hget

/-- The ids of the positions tell their symbols after one of them was written. -/
theorem rows_upserted {rows : List PositionRow} (hrows : ∀ p ∈ rows, Named host account p.symbol p.positionId)
    {position : PaperPosition} (hposition : Named host account position.symbol position.positionId) :
    ∀ p ∈ Table.upserted (fun p => p.positionId = position.positionId) (fun p => p.update (positionRow position))
      (positionRow position) rows, Named host account p.symbol p.positionId := by
  intro p hp
  unfold Table.upserted at hp
  split at hp
  · obtain ⟨q, hq, rfl⟩ := List.mem_map.mp hp
    split
    · exact hrows q hq
    · exact hrows q hq
  · rcases List.mem_append.mp hp with hp | hp
    · exact hrows p hp
    · rw [List.mem_singleton.mp hp]
      exact hposition

/-- Writing a position leaves the open positions in other symbols. -/
theorem holds_upserted (hhost : Digests host) {db db' : Database}
    (hrows : ∀ p ∈ db.positions, Named host account p.symbol p.positionId) {position : PaperPosition}
    (hposition : Named host account position.symbol position.positionId)
    (hdb : db'.positions = Table.upserted (fun p => p.positionId = position.positionId)
      (fun p => p.update (positionRow position)) (positionRow position) db.positions)
    {symbol : String} (hsymbol : position.symbol ≠ symbol) : Holds account symbol db' ↔ Holds account symbol db := by
  have hother : ∀ p : PositionRow, p.symbol = position.symbol → p.isOpen (.nse, account, symbol) = false := by
    intro p hp
    simp [PositionRow.isOpen, hp, hsymbol]
  unfold Holds
  rw [hdb]
  by_cases htaken : ∃ p ∈ db.positions, p.positionId = position.positionId
  · rw [Table.upserted_of_taken htaken]
    have hsame : ∀ p ∈ db.positions,
        (if p.positionId = position.positionId then p.update (positionRow position) else p).isOpen
          (.nse, account, symbol) = p.isOpen (.nse, account, symbol) := by
      intro p hp
      split
      · rename_i hid
        have hsymbols : p.symbol = position.symbol := Named.unique hhost (hrows p hp) (hid ▸ hposition)
        rw [hother p hsymbols, hother (p.update (positionRow position)) hsymbols]
      · rfl
    constructor
    · rintro ⟨p, hp, hopen⟩
      obtain ⟨q, hq, rfl⟩ := List.mem_map.mp hp
      exact ⟨q, hq, hsame q hq ▸ hopen⟩
    · rintro ⟨p, hp, hopen⟩
      exact ⟨_, List.mem_map.mpr ⟨p, hp, rfl⟩, (hsame p hp).trans hopen⟩
  · rw [Table.upserted_of_free (by push Not at htaken; exact htaken)]
    constructor
    · rintro ⟨p, hp, hopen⟩
      rcases List.mem_append.mp hp with hp | hp
      · exact ⟨p, hp, hopen⟩
      · rw [List.mem_singleton.mp hp, hother (positionRow position) rfl] at hopen
        cases hopen
    · rintro ⟨p, hp, hopen⟩
      exact ⟨p, List.mem_append_left _ hp, hopen⟩

/-- The decisions after a member was decided are of an entry or of an exit, and its own is there. -/
theorem written_of_decided {db db' : Database} {ledger : List ExecutionReceipt} {m : String × RiskDecision}
    (hl : LedgerSound host account db ledger) (hm : Proper host account m) (h : Decided db db' m.2) :
    (∀ d ∈ db'.decisions, IsEntryId host d.decisionId d.candidateId ∨ IsExitId host d.decisionId) ∧
    (∀ d ∈ db.decisions, d ∈ db'.decisions) ∧ ∃ d ∈ db'.decisions, d.decisionId = m.2.decisionId := by
  rcases h with ⟨hd, hsame⟩ | ⟨-, happend⟩
  · rw [hsame]
    exact ⟨hl.written, fun _ h => h, hd⟩
  · rw [happend]
    refine ⟨?_, fun d hd => List.mem_append_left _ hd, decisionRow m.2, by simp, rfl⟩
    intro d hd
    rcases List.mem_append.mp hd with hd | hd
    · exact hl.written d hd
    · rw [List.mem_singleton.mp hd]
      exact hm.form.imp id And.right

/-- A new order is an entry order of a candidate only if its member is an entry for the candidate; the
orders that were there are entry orders of the candidates they were of. -/
theorem entryOrders_of_decided (hhost : Digests host) {db db' : Database} {ledger : List ExecutionReceipt}
    {m : String × RiskDecision} (hl : LedgerSound host account db ledger) (hm : Proper host account m)
    (h : Decided db db' m.2) {o : OrderRow} (horders : db'.orders = db.orders ++ [o])
    (hkey : o.idempotencyKey = m.1) (hid : o.decisionId = m.2.decisionId) (candidateId : String) :
    (entryOrders db' candidateId).length ≤
      (entryOrders db candidateId).length + [m].countP (entersFor candidateId) := by
  have hold : ∀ o' ∈ db.orders, (∃ d ∈ db'.decisions, d.decisionId = o'.decisionId ∧ d.candidateId = candidateId) ↔
      ∃ d ∈ db.decisions, d.decisionId = o'.decisionId ∧ d.candidateId = candidateId := by
    intro o' ho'
    rcases h with ⟨-, hsame⟩ | ⟨hfree, happend⟩
    · rw [hsame]
    · rw [happend]
      constructor
      · rintro ⟨d, hd, hid', hc⟩
        rcases List.mem_append.mp hd with hd | hd
        · exact ⟨d, hd, hid', hc⟩
        · -- the decision of an order that was there is not new
          obtain ⟨d', hd', hd''⟩ := hl.decided o' ho'
          rw [List.mem_singleton.mp hd] at hid'
          exact absurd (hd''.trans hid'.symm) (hfree d' hd')
      · rintro ⟨d, hd, hd'⟩
        exact ⟨d, List.mem_append_left _ hd, hd'⟩
  have hnew : (isEntry o.idempotencyKey = true ∧
      ∃ d ∈ db'.decisions, d.decisionId = o.decisionId ∧ d.candidateId = candidateId) →
      entersFor candidateId m = true := by
    rintro ⟨hentry, d, hd, hdid, hc⟩
    rw [hkey] at hentry
    have hform : IsEntryId host m.2.decisionId m.2.intent.candidateId := by
      rcases hm.form with hform | ⟨hexit, -⟩
      · exact hform
      · rw [hentry] at hexit
        cases hexit
    have hrow := (written_of_decided hl hm h).1 d hd
    rw [hdid, hid] at hrow
    rcases hrow with hrow | hrow
    · rw [hc] at hrow
      simp [entersFor, hentry, hform.unique hhost hrow]
    · exact absurd hrow (hform.not_exit hhost)
  have hfilter : (db.orders.filter fun o' => isEntry o'.idempotencyKey = true ∧
      ∃ d ∈ db'.decisions, d.decisionId = o'.decisionId ∧ d.candidateId = candidateId) =
      entryOrders db candidateId := by
    refine List.filter_congr ?_
    intro o' ho'
    rw [decide_eq_decide, hold o' ho']
  rw [entryOrders, horders, List.filter_append, List.length_append, hfilter]
  refine Nat.add_le_add_left ?_ _
  by_cases hq : isEntry o.idempotencyKey = true ∧
      ∃ d ∈ db'.decisions, d.decisionId = o.decisionId ∧ d.candidateId = candidateId
  · rw [List.countP_cons_of_pos (hnew hq)]
    exact (List.length_filter_le _ _).trans (by simp)
  · rw [List.filter_cons_of_neg (by simpa using hq)]
    simp

/-! ### Members -/

/-- **A member that returned**: the tables and the cache stay sound, and it traded as it says. Its receipt is
in the ledger, and if it wrote a position, that is in its symbol. -/
theorem executeOne_sound (hhost : Digests host) {m : String × RiskDecision} (hm : Proper host account m)
    {executedAt : DateTime} {s s' : Session} {r : ExecutionReceipt} {ledger : List ExecutionReceipt}
    (hl : LedgerSound host account s.connection.database ledger) (hc : CacheSound host account s.memory ledger)
    (h : executeOne host policy faults m.2 m.1 executedAt s = .ok r s') :
    ∃ more, LedgerSound host account s'.connection.database (ledger ++ more) ∧
      CacheSound host account s'.memory (ledger ++ more) ∧
      Traded account [m] s.connection.database s'.connection.database ∧ r ∈ ledger ++ more ∧
      (s'.connection.database = s.connection.database ∨ r.position.symbol = m.2.intent.symbol) := by
  obtain ⟨more, hmore, hfollows, hfiled⟩ := executeOne_grows ⟨hl.files, hc.cached⟩ h
  have hmem : r ∈ ledger ++ more := List.mem_of_find?_eq_some hfiled.2.1
  refine ⟨more, ?_⟩
  obtain ⟨-, hid, ⟨hr, hdb, hmemory⟩ | ⟨hnew, -, hkey, current, t, hopen, hreceipt, hmemory, hrec, hdecided⟩⟩ :=
    executeOne_ledger hl.files hc.cached h
  · -- the receipt was there: nothing is written
    have hreceipts : ∀ r' ∈ ledger ++ more, Named host account r'.position.symbol r'.position.positionId := by
      intro r' hr'
      rcases List.mem_append.mp hr' with hr' | hr'
      · exact hl.receipts r' hr'
      · rcases hmore with rfl | rfl
        · cases hr'
        · rw [List.mem_singleton.mp hr']
          exact hl.receipts r (List.mem_of_find?_eq_some hr)
    refine ⟨⟨hfollows.files, ?_, ?_, ?_, hreceipts⟩, ⟨hfollows.cached, ?_⟩, ?_, hmem, Or.inl hdb⟩
    · rw [hdb]; exact hl.decided
    · rw [hdb]; exact hl.written
    · rw [hdb]; exact hl.rows
    · rw [hmemory]; exact hc.positions
    · rw [hdb]; exact Traded.refl account [m] rfl rfl rfl
  · have hnamed := named_hydrate hl hc hopen
    have hposition : Named host account r.position.symbol r.position.positionId := by
      rw [hreceipt]
      exact named_newReceipt hm (fun p hp => hnamed _ p hp) t
    have hcur : ∀ p ∈ current, p.key = positionKey m.2.intent := by
      rintro p rfl
      exact (loadOpenPosition_key hopen).1
    have hkeyed : r.position.key = positionKey m.2.intent := by
      rw [hreceipt]
      exact key_applyFill (fun p hp => (hc.cached.hydrate hcur).keyed _ p hp) _
    have hsymbol : r.position.symbol = m.2.intent.symbol := congrArg (fun key => key.2.2) hkeyed
    have hmore' : more = [r] := by
      rcases hmore with rfl | rfl
      · rw [List.append_nil] at hmem
        exact absurd hkey (ne_of_receiptOf_eq_none hnew hmem)
      · rfl
    subst hmore'
    have horders : s'.connection.database.orders = s.connection.database.orders ++ [orderRow m.1 r.order] := by
      rw [hfollows.files.orders, hl.files.orders, List.map_append, List.map_singleton, hkey]
    obtain ⟨hwritten, hsub, hdecision⟩ := written_of_decided hl hm hdecided
    refine ⟨⟨hfollows.files, ?_, hwritten, ?_, ?_⟩, ⟨hfollows.cached, ?_⟩, ⟨?_, ?_⟩, hmem, Or.inr hsymbol⟩
    · intro o ho
      rw [horders] at ho
      rcases List.mem_append.mp ho with ho | ho
      · obtain ⟨d, hd, hd'⟩ := hl.decided o ho
        exact ⟨d, hsub d hd, hd'⟩
      · obtain ⟨d, hd, hd'⟩ := hdecision
        rw [List.mem_singleton.mp ho]
        exact ⟨d, hd, hd'.trans hid.symm⟩
    · rw [hrec.positions]
      exact rows_upserted hl.rows hposition
    · intro r' hr'
      rcases List.mem_append.mp hr' with hr' | hr'
      · exact hl.receipts r' hr'
      · rw [List.mem_singleton.mp hr']
        exact hposition
    · intro key p hget
      rw [hmemory] at hget
      simp only [PaperExecutionEngine.record, Dict.get?_set] at hget
      split at hget
      · cases hget
        exact hposition
      · exact hnamed key p hget
    · exact entryOrders_of_decided hhost hl hm hdecided horders rfl hid
    · intro symbol hother
      refine holds_upserted hhost hl.rows hposition hrec.positions ?_
      rw [hsymbol]
      exact hother m (List.mem_singleton_self m)

/-- A loop over members that returned. -/
theorem each_sound (hhost : Digests host) {ms : List (String × RiskDecision)} (hms : ∀ m ∈ ms, Proper host account m)
    {executedAt : DateTime} {s s' : Session} {rs : List ExecutionReceipt} {ledger : List ExecutionReceipt}
    (hl : LedgerSound host account s.connection.database ledger) (hc : CacheSound host account s.memory ledger)
    (h : Effect.each (fun m => executeOne host policy faults m.2 m.1 executedAt) ms s = .ok rs s') :
    ∃ more, LedgerSound host account s'.connection.database (ledger ++ more) ∧
      CacheSound host account s'.memory (ledger ++ more) ∧
      Traded account ms s.connection.database s'.connection.database := by
  induction ms generalizing s rs ledger with
  | nil =>
    obtain ⟨rfl, rfl⟩ := Effect.each_nil_eq_ok.mp h
    exact ⟨[], by rwa [List.append_nil], by rwa [List.append_nil], Traded.refl account [] rfl rfl rfl⟩
  | cons m ms ih =>
    obtain ⟨r, s₁, rs', hr, hrs, rfl⟩ := Effect.each_cons_eq_ok.mp h
    obtain ⟨more₁, hl₁, hc₁, htraded₁, -⟩ := executeOne_sound hhost (hms m (List.mem_cons_self ..)) hl hc hr
    obtain ⟨more₂, hl₂, hc₂, htraded₂⟩ := ih (fun m' hm' => hms m' (List.mem_cons_of_mem _ hm')) hl₁ hc₁ hrs
    rw [List.append_assoc] at hl₂ hc₂
    exact ⟨more₁ ++ more₂, hl₂, hc₂, htraded₁.trans htraded₂⟩

/-! ### Batches -/

/-- Entries with one snapshot, time and limits have different keys in one batch only if they are for
different candidates. -/
theorem countP_entersFor_le_one {ms : List (String × RiskDecision)} (hnodup : (ms.map Prod.fst).Nodup)
    (hkeys : ∀ m ∈ ms, ∀ m' ∈ ms, m.2.intent.candidateId = m'.2.intent.candidateId → m.1 = m'.1)
    (candidateId : String) : ms.countP (entersFor candidateId) ≤ 1 := by
  induction ms with
  | nil => simp
  | cons m ms ih =>
    rw [List.map_cons, List.nodup_cons] at hnodup
    by_cases hm : entersFor candidateId m = true
    · have hrest : ms.countP (entersFor candidateId) = 0 := by
        rw [List.countP_eq_zero]
        intro m' hm' henters
        simp only [entersFor, Bool.and_eq_true, decide_eq_true_eq] at hm henters
        refine hnodup.1 (List.mem_map.mpr ⟨m', hm', ?_⟩)
        exact hkeys m' (List.mem_cons_of_mem _ hm') m (List.mem_cons_self ..) (henters.2.trans hm.2.symm)
      rw [List.countP_cons_of_pos hm, hrest]
    · rw [List.countP_cons_of_neg hm]
      exact ih hnodup.2 fun m₁ h₁ m₂ h₂ => hkeys m₁ (List.mem_cons_of_mem _ h₁) m₂ (List.mem_cons_of_mem _ h₂)

end NanoDelta.Paper.Postgres
