import Mathlib.Data.Prod.Lex
import Mathlib.Data.String.Basic
import NanoDelta.Library.Blocks
import NanoDelta.Library.Series
import NanoDelta.Validation.Nse

/-!
# Walk-forward windows

`validation/nse.py`, `evaluate_nse_strategy`: the trades, in the order of time, are put into windows by their places. The
profit of a strategy is then counted window by window, so the windows have to be stretches of time.

* `WalkForward`: what the windows of a list of trades are for.
* `windows_walk_forward`: the windows of `evaluate_nse_strategy`, with sizes that differ by one at most.
-/

namespace NanoDelta.Validation

open Library

/-- The windows of a list of trades are stretches of time one after the other, and every trade is in one of them. With
no fewer trades than windows, none is empty. -/
structure WalkForward (trades : List Trade) (windows : List (List Trade)) : Prop where
  all : windows.flatten.Perm trades
  chronological : windows.Pairwise fun b c => ∀ x ∈ b, ∀ y ∈ c, x.eventTime ≤ y.eventTime
  full : windows.length ≤ trades.length → ∀ rows ∈ windows, rows ≠ []

/-- The windows are even blocks. -/
theorem windowRows_eq_blocks (windows : ℕ) (ordered : List Trade) :
    windowRows windows ordered = blocks (slot windows ordered.length) windows ordered := rfl

/-- The order of the trades is one of time. -/
theorem byTime_sorted (trades : List Trade) :
    (byTime trades).Pairwise fun a b => a.eventTime ≤ b.eventTime := by
  have hkey : ∀ a b : Trade, (a.eventTime < b.eventTime ∨ a.eventTime = b.eventTime ∧ a.symbol ≤ b.symbol) ↔
      toLex (a.eventTime, a.symbol) ≤ toLex (b.eventTime, b.symbol) := by
    intro a b
    rw [Prod.Lex.toLex_le_toLex]
  refine (pairwise_insertionSort_key hkey trades).imp fun h => ?_
  rcases Prod.Lex.toLex_le_toLex.mp h with hlt | ⟨heq, -⟩
  · exact hlt.le
  · exact heq.le

/-- **Walk-forward windows**: for every list of trades and every number of windows from one on, the windows of
`evaluate_nse_strategy` are consecutive blocks of the trades in the order of time, with sizes that differ by one at
most. -/
theorem windows_walk_forward (trades : List Trade) {windows : ℕ} (hwindows : 1 ≤ windows) :
    (windowRows windows (byTime trades)).length = windows ∧
    (windowRows windows (byTime trades)).flatten = byTime trades ∧
    WalkForward trades (windowRows windows (byTime trades)) ∧
    ∀ b ∈ windowRows windows (byTime trades), ∀ c ∈ windowRows windows (byTime trades), b.length ≤ c.length + 1 := by
  have hslot : ∀ i < (byTime trades).length, slot windows (byTime trades).length i < windows := fun _ _ => slot_lt hwindows
  have hperm : (byTime trades).Perm trades := List.perm_insertionSort _ _
  have hflatten := flatten_blocks (slot_mono windows (byTime trades).length) hslot
  have hsize : ∀ b ∈ windowRows windows (byTime trades),
      (byTime trades).length / windows ≤ b.length ∧ b.length ≤ (byTime trades).length / windows + 1 := by
    intro b hb
    obtain ⟨j, hj, rfl⟩ := List.mem_map.mp hb
    exact length_block_slot hwindows _ (List.mem_range.mp hj)
  rw [windowRows_eq_blocks] at hsize ⊢
  refine ⟨length_blocks .., hflatten, ⟨?_, ?_, ?_⟩, ?_⟩
  · rw [hflatten]
    exact hperm
  · exact pairwise_blocks (slot_mono _ _) (byTime_sorted trades) hslot
  · intro hmany rows hrows hnil
    have hpos : 1 ≤ (byTime trades).length / windows := by
      rw [length_blocks, ← hperm.length_eq] at hmany
      exact (Nat.one_le_div_iff hwindows).mpr hmany
    have hlength := (hsize rows hrows).1
    rw [hnil, List.length_nil] at hlength
    omega
  · intro b hb c hc
    have hb' := (hsize b hb).2
    have hc' := (hsize c hc).1
    omega

namespace Sample

/-- A trade without profit, some seconds after the epoch. -/
def trade (second : ℤ) (symbol : String) : Trade := ⟨seconds second, symbol, 0⟩

/-- Four trades, of which the second is the last in time. -/
def fourTrades : List Trade := [trade 1 "TCS", trade 9 "INFY", trade 1 "INFY", trade 4 "TCS"]

end Sample

/-- Four trades in three windows. -/
theorem four_trades_walk_forward :
    windowRows 3 (byTime Sample.fourTrades) = [[Sample.trade 1 "INFY", Sample.trade 1 "TCS"], [Sample.trade 4 "TCS"],
      [Sample.trade 9 "INFY"]] ∧ WalkForward Sample.fourTrades (windowRows 3 (byTime Sample.fourTrades)) :=
  ⟨by decide +kernel, (windows_walk_forward Sample.fourTrades (by decide)).2.2.1⟩

end NanoDelta.Validation
