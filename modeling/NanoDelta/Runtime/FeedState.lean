import NanoDelta.Records
import NanoDelta.Library.Dict

/-!
# The state of the realtime feeds

`runtime/feed_state.py`: the tables in which a realtime cycle keeps what it goes on with after a restart, one row for
each market, and one row for each symbol of a provider with the last sequence that was seen.

* `FeedTables.write`: a call of the store is one transaction.
* What is written for one market changes nothing that is loaded for another.
-/

namespace NanoDelta.Runtime

open Library

/-- `FeedStateRecord`. -/
structure FeedStateRecord where
  market : Market
  activeProvider : Provider
  state : String
  connectedAt : Instant
  lastEventAt : Option DateTime
  gapCount : ℕ
  failoverCount : ℕ
  lastError : Option String
  failedOverAt : Option Instant
  fallbackAvailable : Bool
  statusDetail : Option String

/-- `control.realtime_feed_state`, and `control.realtime_sequence_state` with the last sequence and the gap count. -/
structure FeedTables where
  feedState : Dict Market FeedStateRecord := .empty
  sequenceState : Dict (Market × Provider × String) (ℤ × ℕ) := .empty

/-- A call of the store that writes. -/
inductive FeedWrite where
  | save (record : FeedStateRecord)
  | saveSequence (market : Market) (provider : Provider) (symbol : String) (sequence : ℤ) (gapDelta : ℕ)

namespace FeedTables

variable (self : FeedTables)

/-- `save`. -/
def save (record : FeedStateRecord) : FeedTables :=
  { self with feedState := self.feedState.set record.market record }

/-- `save_sequence`: the last sequence does not go back. -/
def saveSequence (market : Market) (provider : Provider) (symbol : String) (sequence : ℤ) (gapDelta : ℕ) : FeedTables :=
  let row := match self.sequenceState.get? (market, provider, symbol) with
    | none => (sequence, gapDelta)
    | some (last, gapCount) => (max last sequence, gapCount + gapDelta)
  { self with sequenceState := self.sequenceState.set (market, provider, symbol) row }

/-- The last sequences of a market. -/
def sequences (market : Market) : Dict (Provider × String) ℤ :=
  self.sequenceState.entries.foldl (fun d e => if e.1.1 = market then d.set e.1.2 e.2.1 else d) .empty

/-- `load`. -/
def load (market : Market) : Option FeedStateRecord × Dict (Provider × String) ℤ :=
  (self.feedState.get? market, self.sequences market)

/-- The effect of a call. -/
def write : FeedWrite → FeedTables
  | .save record => self.save record
  | .saveSequence market provider symbol sequence gapDelta => self.saveSequence market provider symbol sequence gapDelta

end FeedTables

/-- The market that a call is about. -/
def FeedWrite.market : FeedWrite → Market
  | .save record => record.market
  | .saveSequence market .. => market

/-! ### What is about a market -/

section Markets

variable {t t' : FeedTables} {market : Market}

/-- The row of a market. -/
def FeedTables.row (t : FeedTables) (market : Market) : Option FeedStateRecord := t.feedState.get? market

/-- The last sequence of a symbol. -/
def FeedTables.last (t : FeedTables) (market : Market) (key : Provider × String) : Option ℤ :=
  (t.sequenceState.get? (market, key)).map Prod.fst

theorem get?_foldl_sequences (entries : List ((Market × Provider × String) × (ℤ × ℕ)))
    (hnodup : (entries.map Prod.fst).Nodup) (d : Dict (Provider × String) ℤ) (key : Provider × String) :
    (entries.foldl (fun d e => if e.1.1 = market then d.set e.1.2 e.2.1 else d) d).get? key =
      match entries.find? (fun e => e.1 = (market, key)) with
      | some e => some e.2.1
      | none => d.get? key := by
  induction entries generalizing d with
  | nil => rfl
  | cons e entries ih =>
    obtain ⟨hnotin, hnodup⟩ := List.nodup_cons.mp hnodup
    rw [List.foldl_cons, ih hnodup]
    by_cases hkey : e.1 = (market, key)
    · have hrest : entries.find? (fun e => decide (e.1 = (market, key))) = none := by
        rw [List.find?_eq_none]
        intro e' he' heq
        exact hnotin (List.mem_map.mpr ⟨e', he', (of_decide_eq_true heq).trans hkey.symm⟩)
      rw [hrest, List.find?_cons_of_pos (by simpa using hkey)]
      dsimp only
      rw [if_pos (congrArg Prod.fst hkey), congrArg Prod.snd hkey, Dict.get?_set_self]
    · rw [List.find?_cons_of_neg (by simpa using hkey)]
      cases entries.find? (fun e => decide (e.1 = (market, key))) with
      | some e' => rfl
      | none =>
        dsimp only
        split_ifs with hmarket
        · refine Dict.get?_set_of_ne _ ?_ _
          rintro rfl
          exact hkey (Prod.ext hmarket rfl)
        · rfl

/-- What `load` gives for a symbol. -/
theorem FeedTables.get?_sequences (t : FeedTables) (market : Market) (key : Provider × String) :
    (t.sequences market).get? key = t.last market key := by
  refine (get?_foldl_sequences _ t.sequenceState.nodup _ key).trans ?_
  unfold FeedTables.last Dict.get?
  cases t.sequenceState.entries.find? (fun e => decide (e.1 = (market, key))) <;> rfl

theorem FeedTables.row_save (t : FeedTables) (record : FeedStateRecord) (market : Market) :
    (t.write (.save record)).row market = if market = record.market then some record else t.row market :=
  Dict.get?_set ..

theorem FeedTables.row_saveSequence (t : FeedTables) (market market' : Market) (provider : Provider) (symbol : String)
    (sequence : ℤ) (gapDelta : ℕ) :
    (t.write (.saveSequence market' provider symbol sequence gapDelta)).row market = t.row market := rfl

theorem FeedTables.last_save (t : FeedTables) (record : FeedStateRecord) (market : Market) (key : Provider × String) :
    (t.write (.save record)).last market key = t.last market key := rfl

theorem FeedTables.last_saveSequence (t : FeedTables) (market market' : Market) (provider : Provider) (symbol : String)
    (sequence : ℤ) (gapDelta : ℕ) (key : Provider × String) :
    (t.write (.saveSequence market' provider symbol sequence gapDelta)).last market key =
      if (market, key) = (market', provider, symbol) then
        some ((t.last market key).elim sequence fun last => max last sequence)
      else t.last market key := by
  unfold FeedTables.last FeedTables.write FeedTables.saveSequence
  dsimp only
  rw [Dict.get?_set]
  split_ifs with hkey
  · rw [hkey]
    cases t.sequenceState.get? (market', provider, symbol) <;> rfl
  · rfl

/-- A write for one market is not seen in another. -/
theorem FeedTables.row_write_of_ne (t : FeedTables) {w : FeedWrite} (h : w.market ≠ market) :
    (t.write w).row market = t.row market := by
  cases w with
  | save record =>
    rw [FeedTables.row_save, if_neg]
    exact fun heq => h heq.symm
  | saveSequence market' provider symbol sequence gapDelta => rfl

theorem FeedTables.last_write_of_ne (t : FeedTables) {w : FeedWrite} (h : w.market ≠ market) (key : Provider × String) :
    (t.write w).last market key = t.last market key := by
  cases w with
  | save record => rfl
  | saveSequence market' provider symbol sequence gapDelta =>
    rw [FeedTables.last_saveSequence, if_neg]
    exact fun heq => h (congrArg Prod.fst heq).symm

/-- What the tables have about a market. -/
def FeedTables.view (t : FeedTables) (market : Market) : Option FeedStateRecord × (Provider × String → Option ℤ) :=
  (t.row market, t.last market)

theorem FeedTables.view_write_of_ne (t : FeedTables) {w : FeedWrite} (h : w.market ≠ market) :
    (t.write w).view market = t.view market :=
  Prod.ext (t.row_write_of_ne h) (funext fun key => t.last_write_of_ne h key)

/-- What a write leaves about a market depends on nothing else. -/
theorem FeedTables.view_write_congr (h : t.view market = t'.view market) (w : FeedWrite) :
    (t.write w).view market = (t'.write w).view market := by
  have hrow : t.row market = t'.row market := congrArg Prod.fst h
  have hlast : ∀ key, t.last market key = t'.last market key := fun key => congrArg (fun view => view.2 key) h
  cases w with
  | save record =>
    refine Prod.ext ?_ (funext fun key => hlast key)
    simp only [view, row_save, hrow]
  | saveSequence market' provider symbol sequence gapDelta =>
    refine Prod.ext hrow (funext fun key => ?_)
    simp only [view, last_saveSequence, hlast]

theorem FeedTables.view_foldl_congr (h : t.view market = t'.view market) (ws : List FeedWrite) :
    (ws.foldl write t).view market = (ws.foldl write t').view market := by
  induction ws generalizing t t' with
  | nil => exact h
  | cons w ws ih => exact ih (view_write_congr h w)

/-- Writes for one market are not seen in another. -/
theorem FeedTables.view_foldl_of_ne (t : FeedTables) {ws : List FeedWrite} (h : ∀ w ∈ ws, w.market ≠ market) :
    (ws.foldl write t).view market = t.view market := by
  induction ws generalizing t with
  | nil => rfl
  | cons w ws ih =>
    obtain ⟨hw, hws⟩ := List.forall_mem_cons.mp h
    exact (ih (t.write w) hws).trans (t.view_write_of_ne hw)

end Markets

end NanoDelta.Runtime
