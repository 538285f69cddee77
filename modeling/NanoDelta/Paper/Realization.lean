import NanoDelta.Paper.Instances
import NanoDelta.Runtime.PortfolioSnapshot

/-!
# Realised profit

Every fill that durable paper execution records comes with an event that says how much
profit it realised. The profit of an event is the difference of two numbers that come
from different places: the new value from the in-memory engine, the prior value from
the row of the open position. The sums of the events are nevertheless the figures of the
positions, for every run of one engine with restarts, failures and replays.

* `realization_events_account_for_positions`: one event for each fill of a position, and
  the events of a position sum to its realised profit, gross and net of fees. So what the
  portfolio snapshot sums for an account is what its positions have realised.
-/

namespace NanoDelta.Paper.Postgres

open Library Risk

variable {host : Host} {policy : ExecutionPolicy} {faults : Faults}

/-- The events of a position. -/
def eventsOf (db : Database) (positionId : String) : List RealizationRow :=
  db.realizationEvents.filter fun e => e.positionId = positionId

/-- The fills of a position: those whose order left it. -/
def fillsOf (db : Database) (positionId : String) : List FillRow :=
  db.fills.filter fun f => ∃ s ∈ db.orderPositions, s.orderId = f.orderId ∧ s.positionId = positionId

/-- What the positions of an account have realised, net of fees. -/
def realizedOf (db : Database) (market : Market) (accountId : String) : ℚ :=
  ((db.positions.filter fun p => p.market = market.value ∧ p.accountId = accountId).map fun p =>
    p.realizedPnl - p.totalFees).sum

/-! ### The invariant -/

/-- The event is one of the receipt. -/
def EventOf (host : Host) (r : ExecutionReceipt) (e : RealizationRow) : Prop :=
  ∃ prior, e = realizationRow host r.fill r.position prior

/-- The events are those of the ledger, and their sums are the figures of the positions. -/
structure Settled (host : Host) (db : Database) (ledger : List ExecutionReceipt) (positions : List PaperPosition) :
    Prop where
  /-- One event for each receipt, in order. -/
  events : List.Forall₂ (EventOf host) ledger db.realizationEvents
  /-- Each event is of a position. -/
  owned : ∀ e ∈ db.realizationEvents, ∃ p ∈ positions, p.positionId = e.positionId ∧
    p.market.value = e.market ∧ p.accountId = e.accountId
  /-- The gross profits of the events of a position sum to its realised profit. -/
  gross : ∀ p ∈ positions, ((eventsOf db p.positionId).map RealizationRow.grossPnlDelta).sum = p.realizedPnl
  /-- The fees of the events of a position sum to its fees. -/
  fees : ∀ p ∈ positions, ((eventsOf db p.positionId).map RealizationRow.fee).sum = p.totalFees

/-- The event of a new fill is appended. -/
theorem Settled.append {db db' : Database} {ledger : List ExecutionReceipt} {positions : List PaperPosition}
    (h : Settled host db ledger positions) {key : String} {r : ExecutionReceipt} {prior : ℚ}
    (hnew : ∀ r' ∈ ledger, r'.fill.fillId ≠ r.fill.fillId) (hrec : Recorded host db db' key r prior) :
    db'.realizationEvents = db.realizationEvents ++ [realizationRow host r.fill r.position prior] := by
  rcases hrec.realizationEvents with ⟨⟨e, he, hfill⟩, -⟩ | h'
  · obtain ⟨r', hr', p, rfl⟩ := Effect.exists_of_forall₂ h.events he
    exact absurd hfill (hnew r' hr')
  · exact h'

/-- What summing over the events of a position becomes when an event is appended. -/
theorem sum_eventsOf_append {db db' : Database} {e : RealizationRow}
    (h : db'.realizationEvents = db.realizationEvents ++ [e]) (f : RealizationRow → ℚ) (positionId : String) :
    ((eventsOf db' positionId).map f).sum =
      ((eventsOf db positionId).map f).sum + if e.positionId = positionId then f e else 0 := by
  unfold eventsOf
  rw [h, List.filter_append]
  by_cases he : e.positionId = positionId <;> simp [he]

/-- **A new fill keeps the sums**: the event of a fill adds to the events of its position what the
fill adds to the position. -/
theorem Settled.post (hhost : Text.CollisionFree host.sha256) {db db' : Database}
    {ledger : List ExecutionReceipt} {positions : List PaperPosition} (hbooks : Books host db ledger positions)
    (h : Settled host db ledger positions) {decision : RiskDecision} {key key' : String} {t : Instant}
    {r : ExecutionReceipt}
    (hr : r = newReceipt host policy (openIn positions (positionKey decision.intent)) decision key t)
    (hnew : ∀ r' ∈ ledger, r'.fill.fillId ≠ r.fill.fillId)
    (hrec : Recorded host db db' key' r (priorRealized (openIn positions (positionKey decision.intent)))) :
    Settled host db' (ledger ++ [r])
      (positionsAfter positions (openIn positions (positionKey decision.intent)) r.position) := by
  have hevents := h.append hnew hrec
  obtain ⟨-, hsame, hfree⟩ := post_step hhost hbooks hr hnew hrec
  have hforall : List.Forall₂ (EventOf host) (ledger ++ [r]) db'.realizationEvents := by
    rw [hevents]
    exact List.rel_append h.events (.cons ⟨_, rfl⟩ .nil)
  cases hopen : openIn positions (positionKey decision.intent) with
  | none =>
    rw [hopen] at hevents
    have hpos : r.position = openPosition host decision r.fill := by rw [hr, hopen]; rfl
    -- no event so far has the id of the new position
    have hnone : eventsOf db r.position.positionId = [] := by
      refine List.filter_eq_nil_iff.mpr ?_
      intro e he hid
      obtain ⟨p, hp, hpid, -⟩ := h.owned e he
      exact hfree hopen p hp (hpid.trans (of_decide_eq_true hid))
    have hsum : ∀ f : RealizationRow → ℚ, ∀ p ∈ positions,
        ((eventsOf db' p.positionId).map f).sum = ((eventsOf db p.positionId).map f).sum := by
      intro f p hp
      rw [sum_eventsOf_append hevents, if_neg, add_zero]
      exact fun he => hfree hopen p hp he.symm
    refine ⟨hforall, ?_, ?_, ?_⟩
    · intro e he
      rw [hevents] at he
      rcases List.mem_append.mp he with he | he
      · obtain ⟨p, hp, hpid⟩ := h.owned e he
        exact ⟨p, List.mem_append_left _ hp, hpid⟩
      · rw [List.mem_singleton.mp he]
        exact ⟨r.position, by simp [positionsAfter], rfl, rfl, rfl⟩
    · intro p hp
      rcases List.mem_append.mp hp with hp | hp
      · rw [hsum _ p hp, h.gross p hp]
      · rw [List.mem_singleton.mp hp, sum_eventsOf_append hevents, hnone, realizationRow_positionId, if_pos rfl,
          hpos]
        simp [realizationRow, priorRealized, openPosition]
    · intro p hp
      rcases List.mem_append.mp hp with hp | hp
      · rw [hsum _ p hp, h.fees p hp]
      · rw [List.mem_singleton.mp hp, sum_eventsOf_append hevents, hnone, realizationRow_positionId, if_pos rfl,
          hpos]
        simp [realizationRow, openPosition]
  | some q =>
    rw [hopen] at hevents
    obtain ⟨hq, hqkey, hstate⟩ := mem_of_openIn hopen
    have hid : r.position.positionId = q.positionId := hsame q hopen
    have hpos : r.position = netFill host q decision r.fill := by
      rw [hr, hopen]
      simp [newReceipt, applyFill, hstate]
    have hsum : ∀ f : RealizationRow → ℚ, ∀ p ∈ positions, p.positionId ≠ q.positionId →
        ((eventsOf db' p.positionId).map f).sum = ((eventsOf db p.positionId).map f).sum := by
      intro f p hp hne
      rw [sum_eventsOf_append hevents, if_neg, add_zero]
      exact fun he => hne (he.symm.trans hid)
    refine ⟨hforall, ?_, ?_, ?_⟩
    · intro e he
      rw [hevents] at he
      rcases List.mem_append.mp he with he | he
      · obtain ⟨p, hp, hpid, hmarket, haccount⟩ := h.owned e he
        by_cases hpq : p.positionId = q.positionId
        · obtain rfl := Table.eq_of_key_eq hbooks.ids hp hq hpq
          refine ⟨r.position, List.mem_map.mpr ⟨p, hp, if_pos rfl⟩, hid.trans hpid, ?_, ?_⟩
          · rw [← hmarket, hpos]; rfl
          · rw [← haccount, hpos]; rfl
        · exact ⟨p, List.mem_map.mpr ⟨p, hp, if_neg hpq⟩, hpid, hmarket, haccount⟩
      · rw [List.mem_singleton.mp he]
        exact ⟨r.position, List.mem_map.mpr ⟨q, hq, if_pos rfl⟩, rfl, rfl, rfl⟩
    · intro p hp
      obtain ⟨p', hp', rfl⟩ := List.mem_map.mp hp
      by_cases hpq : p'.positionId = q.positionId
      · obtain rfl := Table.eq_of_key_eq hbooks.ids hp' hq hpq
        rw [if_pos rfl, sum_eventsOf_append hevents, realizationRow_positionId, if_pos rfl, hid, h.gross p' hp']
        simp [realizationRow, priorRealized]
      · rw [if_neg hpq, hsum _ p' hp' hpq, h.gross p' hp']
    · intro p hp
      obtain ⟨p', hp', rfl⟩ := List.mem_map.mp hp
      by_cases hpq : p'.positionId = q.positionId
      · obtain rfl := Table.eq_of_key_eq hbooks.ids hp' hq hpq
        rw [if_pos rfl, sum_eventsOf_append hevents, realizationRow_positionId, if_pos rfl, hid, h.fees p' hp', hpos]
        rfl
      · rw [if_neg hpq, hsum _ p' hp' hpq, h.fees p' hp']

/-! ### Runs -/

/-- The database holds a ledger, its positions and its events. -/
def Accounted (host : Host) (db : Database) : Prop :=
  ∃ ledger positions, Files db ledger ∧ Books host db ledger positions ∧ Settled host db ledger positions

theorem accounted_initial (host : Host) (others : Others) : Accounted host others.initial := by
  refine ⟨[], [], (shared_initial others).files, books_initial host others, .nil, ?_, ?_, ?_⟩
  · intro e he
    cases he
  · intro p hp
    cases hp
  · intro p hp
    cases hp

theorem Accounted.others {db : Database} (h : Accounted host db) (tables : Others) :
    Accounted host (tables.into db) := by
  obtain ⟨ledger, positions, hfiles, hbooks, hsettled⟩ := h
  exact ⟨ledger, positions, files_others hfiles tables, books_others hbooks tables,
    hsettled.events, hsettled.owned, hsettled.gross, hsettled.fees⟩

/-- A member keeps the accounts. -/
theorem Accounted.post (hhost : Text.CollisionFree host.sha256) {m : String × RiskDecision}
    {executedAt : DateTime} {c c' : Connection} {r : ExecutionReceipt} (h : Accounted host c.database)
    (hx : post host policy faults m.2 m.1 executedAt c = .ok r c') : Accounted host c'.database := by
  obtain ⟨ledger, positions, hfiles, hbooks, hsettled⟩ := h
  obtain ⟨-, -, ⟨-, hdb⟩ | ⟨hnew, -, current, t, hopen, hr, hrec⟩⟩ := post_ok hfiles hx
  · rw [hdb]
    exact ⟨ledger, positions, hfiles, hbooks, hsettled⟩
  · have hcur : ∀ p ∈ current, p.key = positionKey m.2.intent := by
      rintro p rfl
      exact (loadOpenPosition_key hopen).1
    obtain rfl : openIn positions (positionKey m.2.intent) = current := by
      rw [loadOpenPosition_rows hbooks.rows] at hopen
      exact Except.ok.inj hopen
    have hkey : r.order.idempotencyKey = m.1 := by rw [hr]; rfl
    have hposition : r.position.key = r.order.key := by
      rw [hr]
      exact key_applyFill hcur _
    rw [← hkey] at hnew hrec
    obtain ⟨hfiles', hfill⟩ := files_of_recorded hfiles hnew (by rw [hr]; rfl) hposition hrec
    exact ⟨ledger ++ [r], _, hfiles', (post_step hhost hbooks hr hfill hrec).1,
      hsettled.post hhost hbooks hr hfill hrec⟩

theorem atomically_ok {α : Type} {body : EStateM PyError Connection α} {c c' : Connection} {a : α}
    (h : atomically faults body c = .ok a c') :
    ∃ c₁ c₂, body c₁ = .ok a c₂ ∧ c₁.database = c.database ∧ c'.database = c₂.database := by
  unfold atomically at h
  obtain ⟨_, c₁, hc₁, h₁⟩ := Effect.bind_eq_ok.mp h
  obtain ⟨-, rfl⟩ := perform_eq_ok.mp hc₁
  obtain ⟨a', c₂, hbody, h₂⟩ := Effect.bind_eq_ok.mp h₁
  obtain ⟨_, c₃, hc₃, h₃⟩ := Effect.bind_eq_ok.mp h₂
  obtain ⟨-, rfl⟩ := perform_eq_ok.mp hc₃
  cases h₃
  exact ⟨_, c₂, hbody, rfl, rfl⟩

/-- A call of the book that returned: its loop over its members, in one transaction. -/
theorem postCall_ok {call : Call} {db : Database} {c' : Connection} {rs : List ExecutionReceipt}
    (h : postCall host policy faults call ⟨db, 0⟩ = .ok rs c') :
    ∃ executedAt c₁ c₂,
      Effect.each (fun m => post host policy faults m.2 m.1 executedAt) (members call) c₁ = .ok rs c₂ ∧
      c₁.database = db ∧ c'.database = c₂.database := by
  cases call with
  | execute decision key executedAt =>
    simp only [postCall, Effect.map_eq_ok] at h
    obtain ⟨r, hx, rfl⟩ := h
    obtain ⟨c₁, c₂, hbody, hdb⟩ := atomically_ok hx
    exact ⟨executedAt, c₁, c₂, Effect.each_cons_eq_ok.mpr ⟨r, c₂, [], hbody, rfl, rfl⟩, hdb⟩
  | executeBatch decisions batchId executedAt =>
    simp only [postCall] at h
    split at h
    · cases h
    · split at h
      · cases h
      · split at h
        · cases h
        · obtain ⟨c₁, c₂, hbody, hdb⟩ := atomically_ok h
          exact ⟨executedAt, c₁, c₂, hbody, hdb⟩

/-- A call of the book keeps the accounts. -/
theorem Accounted.call (hhost : Text.CollisionFree host.sha256) {db : Database} (h : Accounted host db)
    (call : Call) : Accounted host (committedOf db (postCall host policy faults call ⟨db, 0⟩)) := by
  cases hcall : postCall host policy faults call ⟨db, 0⟩ with
  | error e c => exact h
  | ok rs c' =>
    obtain ⟨executedAt, c₁, c₂, hloop, hdb₁, hdb₂⟩ := postCall_ok hcall
    show Accounted host c'.database
    rw [hdb₂]
    refine Effect.each_invariant (P := fun c => Accounted host c.database) ?_ ?_ hloop
    · exact fun m _ c r c' hc hx => hc.post hhost hx
    · rw [hdb₁]
      exact h

variable (policy) in
/-- Every database that one engine reaches is accounted for. -/
theorem accounted_of_engine (hhost : Text.CollisionFree host.sha256) (others : Others) (inputs : List Input) :
    Accounted host ((engine host policy).exec (.initial others) inputs).database := by
  rw [(engine_is_the_book policy hhost others inputs).1.1]
  refine Machine.exec_invariant (P := Accounted host) ?_ (accounted_initial host others) inputs
  intro db input hdb
  cases input with
  | call call faults => exact hdb.call hhost call
  | restart => exact hdb
  | others tables => exact hdb.others tables

/-! ### What the accounts say -/

/-- The fills of a position, in terms of the ledger. -/
theorem fillsOf_files {db : Database} {ledger : List ExecutionReceipt} (h : Files db ledger) (positionId : String) :
    fillsOf db positionId =
      (ledger.filter fun r => r.position.positionId = positionId).map fun r => fillRow r.fill := by
  unfold fillsOf
  rw [h.fills, List.filter_map]
  congr 1
  refine List.filter_congr ?_
  intro r hr
  rw [Function.comp_apply, decide_eq_decide, h.orderPositions]
  constructor
  · rintro ⟨s, hs, horder, hid⟩
    obtain ⟨r', hr', rfl⟩ := List.mem_map.mp hs
    have hsame : r'.order.orderId = r.order.orderId := horder.trans (h.filled r hr)
    obtain rfl := Table.eq_of_key_eq h.orderIds hr' hr hsame
    exact hid
  · intro hid
    exact ⟨_, List.mem_map.mpr ⟨r, hr, rfl⟩, (h.filled r hr).symm, hid⟩

/-- The events of a position are those of its fills. -/
theorem Settled.fillIds {db : Database} {ledger : List ExecutionReceipt} {positions : List PaperPosition}
    (h : Settled host db ledger positions) (hfiles : Files db ledger) (positionId : String) :
    (eventsOf db positionId).map RealizationRow.fillId = (fillsOf db positionId).map FillRow.fillId := by
  rw [fillsOf_files hfiles, List.map_map]
  unfold eventsOf
  have hevents := h.events
  clear h hfiles
  generalize db.realizationEvents = events at hevents
  induction hevents with
  | nil => rfl
  | @cons r e ledger events hevent _ ih =>
    obtain ⟨prior, rfl⟩ := hevent
    by_cases hid : r.position.positionId = positionId
    · simp only [List.filter_cons, realizationRow_positionId, hid, decide_true, if_true, List.map_cons, ih]
      rfl
    · simp only [List.filter_cons, realizationRow_positionId, hid, decide_false, Bool.false_eq_true, if_false, ih]

/-- The net profit of every event is its gross profit less its fee. -/
theorem Settled.net {db : Database} {ledger : List ExecutionReceipt} {positions : List PaperPosition}
    (h : Settled host db ledger positions) {e : RealizationRow} (he : e ∈ db.realizationEvents) :
    e.netPnl = e.grossPnlDelta - e.fee := by
  obtain ⟨r, -, prior, rfl⟩ := Effect.exists_of_forall₂ h.events he
  rfl

theorem Settled.netSum {db : Database} {ledger : List ExecutionReceipt} {positions : List PaperPosition}
    (h : Settled host db ledger positions) {p : PaperPosition} (hp : p ∈ positions) :
    ((eventsOf db p.positionId).map RealizationRow.netPnl).sum = p.realizedPnl - p.totalFees := by
  have hgross : (eventsOf db p.positionId).map RealizationRow.grossPnlDelta =
      (eventsOf db p.positionId).map fun e => e.netPnl + e.fee := by
    refine List.map_congr_left ?_
    intro e he
    rw [h.net (List.mem_filter.mp he).1]
    ring
  have hsum := h.gross p hp
  rw [hgross, List.sum_map_add, h.fees p hp] at hsum
  linarith

/-- The events of an account sum to what its positions have realised. -/
theorem Settled.account {db : Database} {ledger : List ExecutionReceipt} {positions : List PaperPosition}
    (h : Settled host db ledger positions) (hbooks : Books host db ledger positions) (market : Market)
    (accountId : String) :
    ((db.realizationEvents.filter fun e => e.market = market.value ∧ e.accountId = accountId).map
      RealizationRow.netPnl).sum = realizedOf db market accountId := by
  have hrealized : realizedOf db market accountId =
      ((positions.filter fun p => p.market.value = market.value ∧ p.accountId = accountId).map fun p =>
        p.realizedPnl - p.totalFees).sum := by
    unfold realizedOf
    rw [hbooks.rows, List.filter_map, List.map_map]
    rfl
  have hnodup : ((positions.filter fun p => p.market.value = market.value ∧ p.accountId = accountId).map
      PaperPosition.positionId).Nodup := hbooks.ids.sublist (List.filter_sublist.map _)
  have howned : ∀ e ∈ db.realizationEvents.filter fun e => e.market = market.value ∧ e.accountId = accountId,
      ∃ p ∈ positions.filter fun p => p.market.value = market.value ∧ p.accountId = accountId,
        p.positionId = e.positionId := by
    intro e he
    obtain ⟨he, hq⟩ := List.mem_filter.mp he
    obtain ⟨p, hp, hid, hmarket, haccount⟩ := h.owned e he
    obtain ⟨hm, ha⟩ := of_decide_eq_true hq
    exact ⟨p, List.mem_filter.mpr ⟨hp, decide_eq_true ⟨hmarket.trans hm, haccount.trans ha⟩⟩, hid⟩
  rw [hrealized, ← Table.sum_by_owner hnodup howned]
  refine congrArg List.sum (List.map_congr_left ?_)
  intro p hp
  obtain ⟨hp, hq⟩ := List.mem_filter.mp hp
  obtain ⟨hm, ha⟩ := of_decide_eq_true hq
  rw [← h.netSum hp, List.filter_filter]
  refine congrArg (fun es => (List.map RealizationRow.netPnl es).sum) (List.filter_congr ?_)
  intro e he
  -- an event of a position of the account is an event of the account
  by_cases hid : e.positionId = p.positionId
  · obtain ⟨p', hp', hid', hmarket, haccount⟩ := h.owned e he
    obtain rfl := Table.eq_of_key_eq hbooks.ids hp' hp (hid'.trans hid)
    simp [hid, ← hmarket, ← haccount, hm, ha]
  · simp [hid]

open NanoDelta.Runtime in
/-- **Realisation events account for the positions.** After any run of one engine, with restarts,
failed transactions and replays: the events of a position are one for each of its fills, their gross
profits sum to its realised profit, and their net profits to its realised profit less its fees. So
what the portfolio snapshot sums for an account is what its positions have realised, if the day of
the snapshot has all its events. -/
theorem realization_events_account_for_positions (host : Host) (hhost : Text.CollisionFree host.sha256)
    (policy : ExecutionPolicy) (others : Others) (inputs : List Input) :
    let db := ((engine host policy).exec (.initial others) inputs).database
    (∀ p ∈ db.positions,
      (eventsOf db p.positionId).map RealizationRow.fillId = (fillsOf db p.positionId).map FillRow.fillId ∧
      ((eventsOf db p.positionId).map RealizationRow.grossPnlDelta).sum = p.realizedPnl ∧
      ((eventsOf db p.positionId).map RealizationRow.netPnl).sum = p.realizedPnl - p.totalFees) ∧
    (∀ market accountId,
      ((db.realizationEvents.filter fun e => e.market = market.value ∧ e.accountId = accountId).map
        RealizationRow.netPnl).sum = realizedOf db market accountId) ∧
    (∀ market accountId now,
      (∀ e ∈ db.realizationEvents, e.market = market.value → e.accountId = accountId →
        (dayBounds now).1 ≤ e.realizedAt ∧ e.realizedAt < (dayBounds now).2) →
      loadRealizedPnlToday market accountId now db = realizedOf db market accountId) := by
  intro db
  obtain ⟨ledger, positions, hfiles, hbooks, hsettled⟩ :=
    accounted_of_engine policy hhost others inputs
  refine ⟨?_, hsettled.account hbooks, ?_⟩
  · intro row hrow
    rw [show db.positions = positions.map positionRow from hbooks.rows] at hrow
    obtain ⟨p, hp, rfl⟩ := List.mem_map.mp hrow
    exact ⟨hsettled.fillIds hfiles _, hsettled.gross p hp, hsettled.netSum hp⟩
  · intro market accountId now hday
    rw [← hsettled.account hbooks market accountId]
    unfold loadRealizedPnlToday
    refine congrArg (fun es => (List.map RealizationRow.netPnl es).sum) (List.filter_congr ?_)
    intro e he
    rw [decide_eq_decide]
    constructor
    · exact fun h => ⟨h.1, h.2.1⟩
    · exact fun h => ⟨h.1, h.2, hday e he h.1 h.2⟩

/-- A purchase, a sale whose sixth statement fails, a restart, and the sale again. -/
def soldAfterRestart : List Input :=
  [.call sampleBuy Faults.none,
   .call sampleSell (fun n => if n = 6 then some (.databaseError "connection lost") else none),
   .restart, .call sampleSell Faults.none]

/-- Ten bought at 100, a failed attempt to sell them, a restart, and then the sale at 110: the events
of the position sum to the profit of 100. -/
theorem events_of_a_closed_position :
    let db := ((engine sampleHost freePolicy).exec (.initial .sample) soldAfterRestart).database
    db.positions.map (fun p => (p.state, p.realizedPnl)) = [("CLOSED", 100)] ∧
      ∀ p ∈ db.positions, ((eventsOf db p.positionId).map RealizationRow.grossPnlDelta).sum = p.realizedPnl := by
  have h := realization_events_account_for_positions sampleHost sampleHost_collisionFree freePolicy .sample
    soldAfterRestart
  refine ⟨?_, fun p hp => (h.1 p hp).2.1⟩
  rw [sampleHost_eq]
  decide +kernel

end NanoDelta.Paper.Postgres
