import NanoDelta.Providers.Dhan

/-!
# Historical clients and their routes

`providers/registry.py` and the client protocol of `providers/base.py`: which providers serve a
capability of a market, and in which order they are tried.
-/

namespace NanoDelta.Providers

open Library

/-- `ProviderCapability`. -/
inductive ProviderCapability where
  | historicalCandles
  | realtimeQuotes
  | realtimeCandles
  | orderBook
  deriving DecidableEq

/-- `ProviderCapability.value`. -/
def ProviderCapability.value : ProviderCapability → String
  | .historicalCandles => "historical_candles"
  | .realtimeQuotes => "realtime_quotes"
  | .realtimeCandles => "realtime_candles"
  | .orderBook => "order_book"

/-- `HistoricalClient`. A run makes a request at most once, so that a response is a function of the request. -/
structure HistoricalClient where
  market : Market
  provider : Provider
  fetchCandles : HistoricalRequest → Except PyError (List Payload)

/-- The Dhan client as a historical client. -/
def DhanClient.historical (reader : Reader) (self : DhanClient) : HistoricalClient :=
  ⟨.nse, .dhan, self.fetchCandles reader⟩

/-- `ProviderRegistry`: no route is empty or has a provider twice. -/
structure ProviderRegistry where
  routes : Dict (Market × ProviderCapability) (List Provider)
  nodup : ∀ e ∈ routes.entries, e.2 ≠ [] ∧ e.2.Nodup

/-- `ProviderRegistry()`. -/
def ProviderRegistry.new : ProviderRegistry where
  routes := .empty
  nodup := by
    intro e he
    cases he

/-- `register`. -/
def ProviderRegistry.register (self : ProviderRegistry) (market : Market) (capability : ProviderCapability)
    (providers : List Provider) : Except PyError ProviderRegistry :=
  if h : providers = [] ∨ ¬ providers.Nodup then
    .error (.valueError "provider route must be non-empty and contain no duplicates")
  else .ok
    { routes := self.routes.set (market, capability) providers
      nodup := by
        rintro ⟨key, route⟩ he
        rw [not_or, not_not] at h
        have hget := Dict.get?_eq_some_iff.mpr he
        rw [Dict.get?_set] at hget
        split_ifs at hget with hkey
        · cases hget
          exact h
        · exact self.nodup _ (Dict.get?_eq_some_iff.mp hget) }

/-- `route`. -/
def ProviderRegistry.route (self : ProviderRegistry) (market : Market) (capability : ProviderCapability) :
    Except PyError (List Provider) :=
  match self.routes.get? (market, capability) with
  | some providers => .ok providers
  | none => .error (.lookupError ("no provider route for " ++ market.value ++ "/" ++ capability.value))

/-- `default_provider_registry`. -/
def defaultProviderRegistry : Except PyError ProviderRegistry := do
  let registry ← ProviderRegistry.new.register .nse .historicalCandles [.dhan, .truedata]
  let registry ← registry.register .nse .realtimeQuotes [.truedata, .dhan]
  let registry ← registry.register .forex .historicalCandles [.oanda]
  let registry ← registry.register .forex .realtimeQuotes [.oanda]
  let registry ← registry.register .crypto .historicalCandles [.okx, .poloniex]
  let registry ← registry.register .crypto .realtimeQuotes [.okx, .poloniex]
  registry.register .crypto .orderBook [.okx, .poloniex]

end NanoDelta.Providers
