import NanoDelta.Paper.Database

/-!
# Portfolio snapshots

`runtime/portfolio_snapshot.py`: the snapshot that the risk engine judges intents
against, built from the paper tables. An open position without a mark price is an
error. Realised profit is summed from the events of the day of the snapshot, in UTC.
-/

namespace NanoDelta.Runtime

open Library Risk Paper

/-- `_day_bounds`. -/
def dayBounds (now : Instant) : Instant × Instant :=
  let start := now - now % seconds 86400
  (start, start + seconds 86400)

/-- The market and the symbol, as the messages of `_load_open_positions` have them. -/
def positionText (market : Market) (symbol : String) : String :=
  "open position " ++ market.value ++ ":" ++ symbol

/-- `_load_open_positions`. -/
def loadOpenPositions (market : Market) (accountId : String) (markPrices : Dict String ℚ) (db : Database) :
    Except PyError (List PortfolioPosition) :=
  (db.positions.filter fun p => p.market = market.value ∧ p.accountId = accountId ∧ p.state = "OPEN").mapM fun p =>
    match markPrices.get? p.symbol with
    | none => .error (.runtimeError ("no mark price supplied for " ++ positionText market p.symbol ++
        "; refusing to build a risk snapshot that silently omits its exposure"))
    | some markPrice =>
      if markPrice ≤ 0 then
        .error (.valueError ("mark price for " ++ positionText market p.symbol ++ " must be finite and positive"))
      else .ok ⟨market, accountId, p.symbol, p.signedQuantity, markPrice⟩

/-- `_load_realized_pnl_today`. -/
def loadRealizedPnlToday (market : Market) (accountId : String) (now : Instant) (db : Database) : ℚ :=
  let (start, stop) := dayBounds now
  ((db.realizationEvents.filter fun e =>
    e.market = market.value ∧ e.accountId = accountId ∧ start ≤ e.realizedAt ∧ e.realizedAt < stop).map
      RealizationRow.netPnl).sum

/-- The order of the tuples that the snapshot id is made of. -/
def positionLe (a b : PortfolioPosition) : Bool :=
  let texts (p : PortfolioPosition) := [p.market.value, p.accountId, p.symbol]
  texts a < texts b || (texts a = texts b &&
    (a.signedQuantity < b.signedQuantity || (a.signedQuantity = b.signedQuantity && a.markPrice ≤ b.markPrice)))

/-- `str(normalized_positions)`. -/
def normalizedPositions (host : Host) (positions : List PortfolioPosition) : String :=
  reprTuple ((positions.insertionSort fun a b => positionLe a b).map fun p =>
    reprTuple [host.reprStr p.market.value, host.reprStr p.accountId, host.reprStr p.symbol,
      host.reprFloat p.signedQuantity, host.reprFloat p.markPrice])

/-- `build_portfolio_snapshot`. -/
def buildPortfolioSnapshot (host : Host) (market : Market) (accountId : String) (equity : ℚ)
    (markPrices : Dict String ℚ) (now : Instant) (db : Database) : Except PyError PortfolioSnapshot := do
  let positions ← loadOpenPositions market accountId markPrices db
  let realizedPnlToday := loadRealizedPnlToday market accountId now db
  let snapshotId := stableId host
    ["portfolio-snapshot", market.value, accountId, host.reprFloat equity, host.reprFloat realizedPnlToday,
      normalizedPositions host positions, isoformat now]
  PortfolioSnapshot.create snapshotId accountId equity realizedPnlToday positions now

/-- What `_load_open_positions` returns is in the market it was asked for. -/
theorem market_of_loadOpenPositions {market : Market} {accountId : String} {markPrices : Dict String ℚ}
    {db : Database} {positions : List PortfolioPosition}
    (h : loadOpenPositions market accountId markPrices db = .ok positions) : ∀ p ∈ positions, p.market = market := by
  intro p hp
  obtain ⟨row, -, hread⟩ := Effect.exists_of_forall₂ (Effect.forall₂_of_mapM h) hp
  split at hread
  · cases hread
  · split_ifs at hread
    cases hread
    rfl

/-- What a snapshot is built from. -/
theorem buildPortfolioSnapshot_ok {host : Host} {market : Market} {accountId : String} {equity : ℚ}
    {markPrices : Dict String ℚ} {now : Instant} {db : Database} {portfolio : PortfolioSnapshot}
    (h : buildPortfolioSnapshot host market accountId equity markPrices now db = .ok portfolio) :
    loadOpenPositions market accountId markPrices db = .ok portfolio.positions ∧
      portfolio.realizedPnlToday = loadRealizedPnlToday market accountId now db := by
  unfold buildPortfolioSnapshot at h
  obtain ⟨positions, hload, h₁⟩ := Effect.except_bind_eq_ok.mp h
  unfold PortfolioSnapshot.create at h₁
  simp only at h₁
  split_ifs at h₁
  cases h₁
  exact ⟨hload, rfl⟩

/-- A snapshot has every open position of its market and account. -/
theorem mem_of_buildPortfolioSnapshot {host : Host} {market : Market} {accountId : String} {equity : ℚ}
    {markPrices : Dict String ℚ} {now : Instant} {db : Database} {portfolio : PortfolioSnapshot}
    (h : buildPortfolioSnapshot host market accountId equity markPrices now db = .ok portfolio) {symbol : String}
    (hopen : ∃ p ∈ db.positions, p.isOpen (market, accountId, symbol) = true) :
    (market, symbol) ∈ portfolio.positions.map fun p => (p.market, p.symbol) := by
  obtain ⟨p, hp, hopen⟩ := hopen
  simp only [PositionRow.isOpen, Bool.and_eq_true, decide_eq_true_eq] at hopen
  obtain ⟨⟨⟨hmarket, haccount⟩, rfl⟩, hstate⟩ := hopen
  obtain ⟨hload, -⟩ := buildPortfolioSnapshot_ok h
  obtain ⟨q, hq, hread⟩ := Effect.exists_of_forall₂ (Effect.forall₂_of_mapM hload).flip
    (List.mem_filter.mpr ⟨hp, by simp [hmarket, haccount, hstate]⟩)
  refine List.mem_map.mpr ⟨q, hq, ?_⟩
  split at hread
  · cases hread
  · split_ifs at hread
    cases hread
    rfl

end NanoDelta.Runtime
