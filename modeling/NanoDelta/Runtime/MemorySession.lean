import NanoDelta.Library.Filing
import NanoDelta.Runtime.PaperClaims

/-!
# The session store in memory

`MemoryPaperSessionStore`, which stands in for the durable session store in tests. Both give a cycle to one worker at
a time. The durable one lets a claim be completed or failed only while the cycle is running; the one in memory looks
only at the token.

The two are compared call by call, the tokens of one renamed to those of the other.

* `stores_agree_iff`: they agree on a run just if no call ends a claim that has ended already, but for failing a cycle
  that has failed, and none fails a cycle that was never claimed.
* `completed_after_failure`: a claim that is completed after it was failed.
-/

namespace NanoDelta.Runtime

open Library Decisions Paper Orchestration

/-! ### The store -/

/-- `_MemoryCycle`. -/
structure MemoryCycle where
  evaluatedAt : Instant
  state : SessionCycleState := .pending
  claimToken : Option String := none
  lockedUntil : Option Instant := none
  result : Option PaperDecisionResult := none
  deriving DecidableEq

/-- The cycle is running under a lease. -/
def MemoryCycle.leased (cycle : MemoryCycle) (t : Instant) : Prop :=
  cycle.state = .running ∧ ∃ lockedUntil ∈ cycle.lockedUntil, t < lockedUntil

instance (cycle : MemoryCycle) (t : Instant) : Decidable (cycle.leased t) := inferInstanceAs (Decidable (_ ∧ _))

/-- `MemoryPaperSessionStore`: its cycles. -/
abbrev MemoryPaperSessionStore := Dict String MemoryCycle

namespace MemoryPaperSessionStore

/-- `MemoryPaperSessionStore.claim`. -/
def claim (lease : ℤ) (token sessionCycleId : String) (claimedAt : Instant) (cycles : MemoryPaperSessionStore) :
    PaperSessionClaim × MemoryPaperSessionStore :=
  let cycle := (cycles.get? sessionCycleId).getD { evaluatedAt := claimedAt }
  if cycle.state = .completed then
    (⟨.completed, sessionCycleId, cycle.evaluatedAt, none, cycle.result⟩, cycles.set sessionCycleId cycle)
  else if cycle.leased claimedAt then
    (⟨.busy, sessionCycleId, cycle.evaluatedAt, none, none⟩, cycles.set sessionCycleId cycle)
  else
    (⟨.claimed, sessionCycleId, cycle.evaluatedAt, some token, none⟩, cycles.set sessionCycleId
      { cycle with state := .running, claimToken := some token, lockedUntil := some (claimedAt + lease) })

/-- `MemoryPaperSessionStore.complete`. -/
def complete (claim : PaperSessionClaim) (result : PaperDecisionResult) (cycles : MemoryPaperSessionStore) :
    Except PyError MemoryPaperSessionStore :=
  match cycles.get? claim.sessionCycleId with
  | none => .error (.keyError claim.sessionCycleId)
  | some cycle =>
    if cycle.claimToken ≠ claim.claimToken then
      .error (.runtimeError "paper session claim was lost before completion")
    else .ok (cycles.set claim.sessionCycleId
      { cycle with state := .completed, lockedUntil := none, result := some result })

/-- `MemoryPaperSessionStore.fail`. -/
def fail (claim : PaperSessionClaim) (cycles : MemoryPaperSessionStore) : Except PyError MemoryPaperSessionStore :=
  match cycles.get? claim.sessionCycleId with
  | none => .error (.keyError claim.sessionCycleId)
  | some cycle =>
    if cycle.claimToken = claim.claimToken then
      .ok (cycles.set claim.sessionCycleId { cycle with state := .failed, lockedUntil := none })
    else .ok cycles

end MemoryPaperSessionStore

/-- The store in memory, as a machine: a call that raises changes nothing. -/
def memoryStore : Machine MemoryPaperSessionStore StoreCall (Except PyError StoreAnswer) where
  step cycles
    | .claim lease token sessionCycleId _ _ claimedAt =>
      let (claim, cycles') := MemoryPaperSessionStore.claim lease token sessionCycleId claimedAt cycles
      (cycles', .ok (.claim claim))
    | .complete claim result =>
      match MemoryPaperSessionStore.complete claim result cycles with
      | .ok cycles' => (cycles', .ok .done)
      | .error e => (cycles, .error e)
    | .fail claim _ =>
      match MemoryPaperSessionStore.fail claim cycles with
      | .ok cycles' => (cycles', .ok .done)
      | .error e => (cycles, .error e)

/-! ### What is compared -/

/-- The claim with its token renamed. -/
def renamed (f : String → String) (held : PaperSessionClaim) : PaperSessionClaim :=
  { held with claimToken := held.claimToken.map f }

/-- The call with its tokens renamed. -/
def StoreCall.rename (f : String → String) : StoreCall → StoreCall
  | .claim lease token sessionCycleId ids eventTime claimedAt =>
    .claim lease (f token) sessionCycleId ids eventTime claimedAt
  | .complete held result => .complete (renamed f held) result
  | .fail held errorType => .fail (renamed f held) errorType

/-- An answer, as far as it is compared. -/
inductive StoreReply where
  | raised
  | done
  | claim (state : PaperSessionClaimState) (evaluatedAt : Instant)
  deriving DecidableEq

/-- What is compared of an answer. -/
def replyOf : Except PyError StoreAnswer → StoreReply
  | .error _ => .raised
  | .ok .done => .done
  | .ok (.claim held) => .claim held.state held.evaluatedAt

/-- A cycle in memory and its row, the tokens renamed. -/
structure SameCycle (f : String → String) (cycle : MemoryCycle) (row : SessionCycleRow) : Prop where
  evaluatedAt : row.evaluatedAt = cycle.evaluatedAt
  state : row.state = cycle.state
  claimToken : row.claimToken = cycle.claimToken.map f
  lockedUntil : row.lockedUntil = cycle.lockedUntil

/-- The stores have the same cycles, each in the same state. -/
def SameCycles (f : String → String) (cycles : MemoryPaperSessionStore) (rows : List SessionCycleRow) : Prop :=
  ∀ id, Option.Rel (SameCycle f) (cycles.get? id) (cycleRow id rows)

/-- The condition on a call: it ends a claim only while its cycle is running, or fails a cycle that has failed, and it
does not fail a cycle that was never claimed. -/
def Timely (cycles : MemoryPaperSessionStore) : StoreCall → Prop
  | .claim _ _ _ _ _ _ => True
  | .complete held _ => ∀ cycle ∈ cycles.get? held.sessionCycleId,
      cycle.claimToken = held.claimToken → cycle.state = .running
  | .fail held _ => (cycles.get? held.sessionCycleId).isSome = true ∧
      ∀ cycle ∈ cycles.get? held.sessionCycleId, cycle.claimToken = held.claimToken → cycle.state ≠ .completed

instance (cycles : MemoryPaperSessionStore) : ∀ call, Decidable (Timely cycles call)
  | .claim _ _ _ _ _ _ => isTrue trivial
  | .complete held _ => inferInstanceAs (Decidable (∀ cycle ∈ cycles.get? held.sessionCycleId, _ → _))
  | .fail held _ => inferInstanceAs (Decidable (_ ∧ ∀ cycle ∈ cycles.get? held.sessionCycleId, _ → _))

/-! ### Cycles and rows -/

section Cycles

variable {f : String → String} {cycles : MemoryPaperSessionStore} {rows rows' : List SessionCycleRow} {id : String}
  {cycle : MemoryCycle} {row : SessionCycleRow}

/-- The cycle of a call and its row, if there are any. -/
theorem SameCycles.cases (h : SameCycles f cycles rows) (id : String) :
    (cycles.get? id = none ∧ cycleRow id rows = none) ∨
      ∃ cycle row, cycles.get? id = some cycle ∧ cycleRow id rows = some row ∧ SameCycle f cycle row := by
  have hid := h id
  cases hcycle : cycles.get? id with
  | none =>
    rw [hcycle] at hid
    cases hrow : cycleRow id rows with
    | none => exact Or.inl ⟨rfl, rfl⟩
    | some row =>
      rw [hrow] at hid
      cases hid
  | some cycle =>
    rw [hcycle] at hid
    cases hrow : cycleRow id rows with
    | none =>
      rw [hrow] at hid
      cases hid
    | some row =>
      rw [hrow] at hid
      cases hid with
      | some hsame => exact Or.inr ⟨cycle, row, rfl, rfl, hsame⟩

/-- The row of a cycle. -/
theorem SameCycles.exists_row (h : SameCycles f cycles rows) (hcycle : cycles.get? id = some cycle) :
    ∃ row, cycleRow id rows = some row ∧ SameCycle f cycle row := by
  rcases h.cases id with ⟨hnone, -⟩ | ⟨cycle', row, hcycle', hrow, hsame⟩
  · cases hnone.symm.trans hcycle
  · cases hcycle'.symm.trans hcycle
    exact ⟨row, hrow, hsame⟩

/-- The cycle that a claim finds, and its row. -/
theorem SameCycles.found (h : SameCycles f cycles rows) (id : String) (ids : List String)
    (eventTime claimedAt : Instant) :
    SameCycle f ((cycles.get? id).getD { evaluatedAt := claimedAt })
      ((cycleRow id rows).getD (pendingRow id ids eventTime claimedAt)) := by
  rcases h.cases id with ⟨hcycle, hrow⟩ | ⟨cycle, row, hcycle, hrow, hsame⟩
  · rw [hcycle, hrow]
    exact ⟨rfl, rfl, rfl, rfl⟩
  · rw [hcycle, hrow]
    exact hsame

theorem SameCycle.leased_iff (h : SameCycle f cycle row) (t : Instant) : row.leased t ↔ cycle.leased t := by
  unfold SessionCycleRow.leased MemoryCycle.leased
  rw [h.state, h.lockedUntil]

/-- The row of a cycle is held by a claim if the cycle is running and has the claim's token. -/
theorem SameCycle.heldBy_iff (hf : Function.Injective f) (h : SameCycle f cycle row)
    (hclaimed : cycle.claimToken.isSome = true) (claim : PaperSessionClaim)
    (hrow : row.sessionCycleId = claim.sessionCycleId) :
    row.heldBy (renamed f claim) = true ↔ cycle.state = .running ∧ cycle.claimToken = claim.claimToken := by
  have hsome : (cycle.claimToken.map f).isSome = true := by rwa [Option.isSome_map]
  have htokens : cycle.claimToken.map f = claim.claimToken.map f ↔ cycle.claimToken = claim.claimToken :=
    (Option.map_injective hf).eq_iff
  simp [SessionCycleRow.heldBy, renamed, hrow, h.state, h.claimToken, hsome, htokens]

end Cycles

/-! ### A timely call -/

/-- A cycle that has been claimed, and is not locked if its claim failed. -/
structure MemoryCycle.Claimed (cycle : MemoryCycle) : Prop where
  token : cycle.claimToken.isSome = true
  started : cycle.state ≠ .pending
  unlocked : cycle.state = .failed → cycle.lockedUntil = none

/-- What a run keeps: the same cycles, each of them claimed, and rows that a completed cycle can be read from. -/
structure Synced (f : String → String) (cycles : MemoryPaperSessionStore) (rows : List SessionCycleRow) : Prop where
  same : SameCycles f cycles rows
  claimed : ∀ id, ∀ cycle ∈ cycles.get? id, cycle.Claimed
  ids : (rows.map SessionCycleRow.sessionCycleId).Nodup
  readable : ∀ id row, cycleRow id rows = some row → row.state = .completed → row.cycleMode.isSome = true

theorem synced_new (f : String → String) : Synced f .empty [] where
  same _ := .none
  claimed id cycle hcycle := by
    rw [Dict.get?_empty] at hcycle
    cases hcycle
  ids := List.nodup_nil
  readable id row hrow := by
    rw [show cycleRow id [] = none from rfl] at hrow
    cases hrow

section Step

variable {f : String → String} {cycles : MemoryPaperSessionStore} {rows rows' : List SessionCycleRow} {id : String}
  {cycle : MemoryCycle} {row : SessionCycleRow}

/-- A call that gives one cycle a new state. -/
theorem Synced.set (h : Synced f cycles rows) (hrow : cycleRow id rows' = some row)
    (hothers : ∀ id' ≠ id, cycleRow id' rows' = cycleRow id' rows)
    (hids : (rows'.map SessionCycleRow.sessionCycleId).Nodup) (hsame : SameCycle f cycle row)
    (hclaimed : cycle.Claimed) (hread : row.state = .completed → row.cycleMode.isSome = true) :
    Synced f (cycles.set id cycle) rows' := by
  refine ⟨fun id' => ?_, fun id' cycle' hget => ?_, hids, fun id' row' hrow' => ?_⟩
  · by_cases hid : id' = id
    · subst hid
      rw [hrow, Dict.get?_set_self]
      exact .some hsame
    · rw [hothers id' hid, Dict.get?_set_of_ne _ hid]
      exact h.same id'
  · rw [Dict.get?_set] at hget
    split_ifs at hget
    · cases hget
      exact hclaimed
    · exact h.claimed id' cycle' hget
  · by_cases hid : id' = id
    · subst hid
      cases hrow.symm.trans hrow'
      exact hread
    · rw [hothers id' hid] at hrow'
      exact h.readable id' row' hrow'

/-- A call that changes no cycle. -/
theorem Synced.idle (h : Synced f cycles rows) (hrows : ∀ id, cycleRow id rows' = cycleRow id rows)
    (hids : (rows'.map SessionCycleRow.sessionCycleId).Nodup) : Synced f cycles rows' := by
  refine ⟨fun id => ?_, h.claimed, hids, fun id row hrow => ?_⟩
  · rw [hrows]
    exact h.same id
  · rw [hrows] at hrow
    exact h.readable id row hrow

/-- A claim keeps the stores in step, and gets the same reply. -/
theorem Synced.claim_step (h : Synced f cycles rows) (lease : ℤ) (token id : String) (ids : List String)
    (eventTime claimedAt : Instant) :
    Synced f (memoryStore.step cycles (.claim lease token id ids eventTime claimedAt)).1
        (claimStore.step rows (.claim lease (f token) id ids eventTime claimedAt)).1 ∧
      replyOf (memoryStore.step cycles (.claim lease token id ids eventTime claimedAt)).2 =
        replyOf (claimStore.step rows (.claim lease (f token) id ids eventTime claimedAt)).2 := by
  obtain ⟨claim, rows', hclaim⟩ := claim_returns (h.readable id) lease (f token) ids eventTime claimedAt
  obtain ⟨-, htime, hstate, hcases, hothers, hids⟩ := claim_cases hclaim
  have hsame := h.same.found id ids eventTime claimedAt
  have hread : ((cycleRow id rows).getD (pendingRow id ids eventTime claimedAt)).state = .completed →
      ((cycleRow id rows).getD (pendingRow id ids eventTime claimedAt)).cycleMode.isSome = true := by
    cases hrow : cycleRow id rows with
    | none => exact fun hpending => absurd hpending (by simp [pendingRow])
    | some row => exact h.readable id row hrow
  have hclaimed : ((cycles.get? id).getD { evaluatedAt := claimedAt }).state ≠ .pending →
      ((cycles.get? id).getD { evaluatedAt := claimedAt }).Claimed := by
    cases hcycle : cycles.get? id with
    | none => exact fun hne => absurd rfl hne
    | some cycle => exact fun _ => h.claimed id cycle hcycle
  generalize hcycle : (cycles.get? id).getD { evaluatedAt := claimedAt } = cycle at hsame hclaimed
  generalize (cycleRow id rows).getD (pendingRow id ids eventTime claimedAt) = row at htime hstate hcases hsame hread
  simp only [claimState, hsame.state, hsame.leased_iff] at hstate
  simp only [memoryStore, claimStore, MemoryPaperSessionStore.claim, hcycle, hclaim, replyOf]
  rw [htime, hstate, hsame.evaluatedAt]
  by_cases hcompleted : cycle.state = .completed
  · rw [if_pos hcompleted, if_pos hcompleted]
    rcases hcases with ⟨-, -, hrow⟩ | ⟨-, -, hnot, -⟩
    · exact ⟨h.set hrow hothers (hids h.ids) hsame (hclaimed (by rw [hcompleted]; decide)) hread, rfl⟩
    · exact absurd (hsame.state.trans hcompleted) hnot
  · by_cases hleased : cycle.leased claimedAt
    · rw [if_neg hcompleted, if_pos hleased, if_neg hcompleted, if_pos hleased]
      rcases hcases with ⟨-, -, hrow⟩ | ⟨-, -, -, hnot, -⟩
      · exact ⟨h.set hrow hothers (hids h.ids) hsame (hclaimed (by rw [hleased.1]; decide)) hread, rfl⟩
      · exact absurd ((hsame.leased_iff claimedAt).mpr hleased) hnot
    · rw [if_neg hcompleted, if_neg hleased, if_neg hcompleted, if_neg hleased]
      rcases hcases with ⟨-, hwhy, -⟩ | ⟨-, -, -, -, hrow⟩
      · rw [hsame.state, hsame.leased_iff] at hwhy
        exact absurd hwhy (not_or.mpr ⟨hcompleted, hleased⟩)
      · have hrunning : SessionCycleState.running ≠ .completed := by simp
        exact ⟨h.set hrow hothers (hids h.ids) ⟨hsame.evaluatedAt, rfl, rfl, rfl⟩ ⟨rfl, by simp, by simp⟩
          fun hcompleted => absurd hcompleted hrunning, rfl⟩

/-- A timely completion keeps the stores in step, and gets the same reply. -/
theorem Synced.complete_step (hf : Function.Injective f) (h : Synced f cycles rows) {claim : PaperSessionClaim}
    {result : PaperDecisionResult} (htimely : Timely cycles (.complete claim result)) :
    Synced f (memoryStore.step cycles (.complete claim result)).1
        (claimStore.step rows (.complete (renamed f claim) result)).1 ∧
      replyOf (memoryStore.step cycles (.complete claim result)).2 =
        replyOf (claimStore.step rows (.complete (renamed f claim) result)).2 := by
  have heq := complete_eq h.ids (renamed f claim) result
  simp only [memoryStore, claimStore, MemoryPaperSessionStore.complete]
  rcases h.same.cases claim.sessionCycleId with ⟨hcycle, hrow⟩ | ⟨cycle, row, hcycle, hrow, hsame⟩
  · rw [if_neg (by rintro ⟨row, hrow', -⟩; cases hrow.symm.trans hrow')] at heq
    simp only [hcycle, heq]
    exact ⟨h, rfl⟩
  · have hclaimed := h.claimed _ cycle hcycle
    have hheld := hsame.heldBy_iff hf hclaimed.token claim (sessionCycleId_of_cycleRow hrow)
    by_cases htoken : cycle.claimToken = claim.claimToken
    · rw [if_pos ⟨row, hrow, hheld.mpr ⟨htimely cycle hcycle htoken, htoken⟩⟩] at heq
      obtain ⟨⟨row', hrow', -, hafter⟩, hothers, hids⟩ := complete_cases h.ids heq
      cases hrow.symm.trans hrow'
      simp only [hcycle, heq, if_neg (not_not.mpr htoken)]
      exact ⟨h.set hafter hothers hids ⟨hsame.evaluatedAt, rfl, hsame.claimToken, rfl⟩
        ⟨hclaimed.token, nofun, nofun⟩ fun _ => rfl, trivial⟩
    · rw [if_neg fun ⟨row', hrow', hrunning⟩ => htoken (by cases hrow.symm.trans hrow'; exact (hheld.mp hrunning).2)]
        at heq
      simp only [hcycle, heq, if_pos htoken]
      exact ⟨h, trivial⟩

/-- A timely failure keeps the stores in step, and gets the same reply. -/
theorem Synced.fail_step (hf : Function.Injective f) (h : Synced f cycles rows) {claim : PaperSessionClaim}
    {errorType : String} (htimely : Timely cycles (.fail claim errorType)) :
    Synced f (memoryStore.step cycles (.fail claim errorType)).1
        (claimStore.step rows (.fail (renamed f claim) errorType)).1 ∧
      replyOf (memoryStore.step cycles (.fail claim errorType)).2 =
        replyOf (claimStore.step rows (.fail (renamed f claim) errorType)).2 := by
  have hfail := fun id => fail_cases id rows (renamed f claim) errorType
  have hids := (hfail claim.sessionCycleId).2 ▸ h.ids
  obtain ⟨cycle, hcycle⟩ := Option.isSome_iff_exists.mp htimely.1
  obtain ⟨row, hrow, hsame⟩ := h.same.exists_row hcycle
  have hclaimed := h.claimed _ cycle hcycle
  have hheld := hsame.heldBy_iff hf hclaimed.token claim (sessionCycleId_of_cycleRow hrow)
  have hothers : ∀ id' ≠ claim.sessionCycleId,
      cycleRow id' (PostgresPaperSessionStore.fail (renamed f claim) errorType rows) = cycleRow id' rows := by
    intro id' hne
    rw [(hfail id').1]
    refine (Option.map_congr fun r hr => if_neg fun hholds => hne ?_).trans (Option.map_id')
    exact (sessionCycleId_of_cycleRow hr).symm.trans (heldBy_iff.mp hholds).1
  have hidle : ¬ (cycle.state = .running ∧ cycle.claimToken = claim.claimToken) →
      Synced f cycles (PostgresPaperSessionStore.fail (renamed f claim) errorType rows) := by
    refine fun hnot => h.idle (fun id' => ?_) hids
    by_cases hid : id' = claim.sessionCycleId
    · rw [hid, (hfail _).1, hrow, Option.map_some, if_neg fun hholds => hnot (hheld.mp hholds)]
    · exact hothers id' hid
  simp only [memoryStore, claimStore, MemoryPaperSessionStore.fail, hcycle]
  by_cases htoken : cycle.claimToken = claim.claimToken
  · rw [if_pos htoken]
    by_cases hrunning : cycle.state = .running
    · have hafter := (hfail claim.sessionCycleId).1
      rw [hrow, Option.map_some, if_pos (hheld.mpr ⟨hrunning, htoken⟩)] at hafter
      exact ⟨h.set hafter hothers hids ⟨hsame.evaluatedAt, rfl, hsame.claimToken, rfl⟩
        ⟨hclaimed.token, nofun, fun _ => rfl⟩ nofun, rfl⟩
    · -- Neither pending nor running nor completed, so the claim has failed before.
      have hfailed : cycle.state = .failed := by
        have hcompleted := htimely.2 cycle hcycle htoken
        have hstarted := hclaimed.started
        cases hstate : cycle.state <;> simp_all
      have hself : { cycle with state := .failed, lockedUntil := none } = cycle := by
        rw [← hfailed, ← hclaimed.unlocked hfailed]
      rw [hself, Dict.set_eq_self hcycle]
      exact ⟨hidle fun hboth => hrunning hboth.1, rfl⟩
  · rw [if_neg htoken]
    exact ⟨hidle fun hboth => htoken hboth.2, rfl⟩

/-- **A timely call** keeps the stores in step, and gets the same reply. -/
theorem Synced.step (hf : Function.Injective f) (h : Synced f cycles rows) {call : StoreCall}
    (htimely : Timely cycles call) :
    Synced f (memoryStore.step cycles call).1 (claimStore.step rows (call.rename f)).1 ∧
      replyOf (memoryStore.step cycles call).2 = replyOf (claimStore.step rows (call.rename f)).2 := by
  cases call with
  | claim lease token id ids eventTime claimedAt => exact h.claim_step lease token id ids eventTime claimedAt
  | complete claim result => exact h.complete_step hf htimely
  | fail claim errorType => exact h.fail_step hf htimely

/-! ### A call that is not timely -/

/-- A cycle has failed in memory, and its row says that it was completed. -/
structure Parted (cycles : MemoryPaperSessionStore) (rows : List SessionCycleRow) (id : String) : Prop where
  failed : ∃ cycle ∈ cycles.get? id, cycle.state = .failed
  ids : (rows.map SessionCycleRow.sessionCycleId).Nodup
  completed : ∃ row, cycleRow id rows = some row ∧ row.state = .completed

/-- Stores that have parted do not have the same cycles. -/
theorem Parted.not_same (h : Parted cycles rows id) : ¬ SameCycles f cycles rows := by
  intro hsame
  obtain ⟨cycle, hcycle, hfailed⟩ := h.failed
  obtain ⟨row, hrow, hcompleted⟩ := h.completed
  obtain ⟨row', hrow', hrel⟩ := hsame.exists_row hcycle
  cases hrow'.symm.trans hrow
  rw [hrel.state, hfailed] at hcompleted
  cases hcompleted

/-- Setting another cycle, or this one to one that has failed. -/
theorem failed_set {id' : String} {cycle' : MemoryCycle} (h : ∃ cycle ∈ cycles.get? id, cycle.state = .failed)
    (hset : id = id' → cycle'.state = .failed) : ∃ cycle ∈ (cycles.set id' cycle').get? id, cycle.state = .failed := by
  by_cases hid : id = id'
  · subst hid
    exact ⟨cycle', Dict.get?_set_self .., hset rfl⟩
  · rw [Dict.get?_set_of_ne _ hid]
    exact h

/-- A completed cycle is not claimed again. -/
theorem Parted.claim_reply (h : Parted cycles rows id) (lease : ℤ) (token : String) (ids : List String)
    (eventTime claimedAt evaluatedAt : Instant) :
    replyOf (claimStore.step rows (.claim lease token id ids eventTime claimedAt)).2 ≠ .claim .claimed evaluatedAt := by
  obtain ⟨row, hrow, hcompleted⟩ := h.completed
  intro hreply
  simp only [claimStore] at hreply
  cases hclaim : PostgresPaperSessionStore.claim lease token id ids eventTime claimedAt rows with
  | error e =>
    rw [hclaim] at hreply
    cases hreply
  | ok result =>
    obtain ⟨claim, rows'⟩ := result
    obtain ⟨-, -, hstate, -⟩ := claim_cases hclaim
    rw [hrow, Option.getD_some, claimState, if_pos hcompleted] at hstate
    simp only [hclaim, replyOf, hstate] at hreply
    cases hreply

/-- A completed cycle is not completed again. -/
theorem Parted.complete_raises (h : Parted cycles rows id) (claim : PaperSessionClaim) (hid : claim.sessionCycleId = id)
    (result : PaperDecisionResult) : replyOf (claimStore.step rows (.complete claim result)).2 = .raised := by
  obtain ⟨row, hrow, hcompleted⟩ := h.completed
  have hnot : ¬ ∃ row, cycleRow claim.sessionCycleId rows = some row ∧ row.heldBy claim = true := by
    rintro ⟨row', hrow', hheld⟩
    rw [hid] at hrow'
    cases hrow.symm.trans hrow'
    rw [(heldBy_iff.mp hheld).2.1] at hcompleted
    cases hcompleted
  simp only [claimStore, complete_eq h.ids, if_neg hnot]
  rfl

/-- **Stores that have parted** stay so, or a reply differs. -/
theorem Parted.step (h : Parted cycles rows id) (call : StoreCall)
    (hreply : replyOf (memoryStore.step cycles call).2 = replyOf (claimStore.step rows (call.rename f)).2) :
    Parted (memoryStore.step cycles call).1 (claimStore.step rows (call.rename f)).1 id := by
  obtain ⟨cycle, hcycle, hfailed⟩ := h.failed
  obtain ⟨row, hrow, hcompleted⟩ := h.completed
  obtain ⟨hids, hrow'⟩ := completed_step h.ids hrow hcompleted (call.rename f)
  refine ⟨?_, hids, row, hrow', hcompleted⟩
  cases call with
  | claim lease token id' ids eventTime claimedAt =>
    have hkept : id = id' → ((cycles.get? id').getD { evaluatedAt := claimedAt }).state = .failed := by
      rintro rfl
      rw [hcycle]
      exact hfailed
    simp only [memoryStore, MemoryPaperSessionStore.claim] at hreply ⊢
    split_ifs at hreply ⊢ with hdone hleased
    · exact failed_set h.failed hkept
    · exact failed_set h.failed hkept
    · refine failed_set h.failed fun hid => ?_
      subst hid
      exact absurd hreply.symm (h.claim_reply lease (f token) ids eventTime claimedAt _)
  | complete claim result =>
    simp only [memoryStore, MemoryPaperSessionStore.complete] at hreply ⊢
    cases hget : cycles.get? claim.sessionCycleId with
    | none => exact h.failed
    | some cycle' =>
      simp only [hget] at hreply ⊢
      split_ifs at hreply ⊢
      · exact h.failed
      · refine failed_set h.failed fun hid => ?_
        rw [StoreCall.rename, h.complete_raises (renamed f claim) hid.symm] at hreply
        cases hreply
  | fail claim errorType =>
    simp only [memoryStore, MemoryPaperSessionStore.fail]
    cases hget : cycles.get? claim.sessionCycleId with
    | none => exact h.failed
    | some cycle' =>
      simp only
      split_ifs
      · exact failed_set h.failed fun _ => rfl
      · exact h.failed

/-- In stores that have parted, a run gives another reply or ends with other cycles. -/
theorem Parted.run (h : Parted cycles rows id) (run : List StoreCall)
    (hreplies : (memoryStore.outputs cycles run).map replyOf =
      (claimStore.outputs rows (run.map (·.rename f))).map replyOf) :
    ¬ SameCycles f (memoryStore.exec cycles run) (claimStore.exec rows (run.map (·.rename f))) := by
  induction run generalizing cycles rows with
  | nil => exact h.not_same
  | cons call run ih =>
    obtain ⟨hfirst, hrest⟩ := List.cons.inj hreplies
    exact ih (h.step call hfirst) hrest

/-- **A call that is not timely** gets different replies, or parts the stores. -/
theorem Synced.step_of_not_timely (hf : Function.Injective f) (h : Synced f cycles rows) {call : StoreCall}
    (htimely : ¬ Timely cycles call)
    (hreply : replyOf (memoryStore.step cycles call).2 = replyOf (claimStore.step rows (call.rename f)).2) :
    ∃ id, Parted (memoryStore.step cycles call).1 (claimStore.step rows (call.rename f)).1 id := by
  cases call with
  | claim lease token id ids eventTime claimedAt => exact absurd trivial htimely
  | complete claim result =>
    unfold Timely at htimely
    push Not at htimely
    obtain ⟨cycle, hcycle, htoken, hstate⟩ := htimely
    obtain ⟨row, hrow, hsame⟩ := h.same.exists_row hcycle
    have hget : cycles.get? claim.sessionCycleId = some cycle := hcycle
    have hnot : ¬ ∃ row, cycleRow (renamed f claim).sessionCycleId rows = some row ∧
        row.heldBy (renamed f claim) = true := by
      rintro ⟨row', hrow', hheld⟩
      cases hrow.symm.trans hrow'
      exact hstate ((hsame.heldBy_iff hf (h.claimed _ cycle hcycle).token claim
        (sessionCycleId_of_cycleRow hrow)).mp hheld).1
    simp only [memoryStore, claimStore, StoreCall.rename, MemoryPaperSessionStore.complete, complete_eq h.ids, hget,
      if_neg hnot, if_neg (not_not.mpr htoken)] at hreply
    cases hreply
  | fail claim errorType =>
    cases hget : cycles.get? claim.sessionCycleId with
    | none =>
      simp only [memoryStore, claimStore, MemoryPaperSessionStore.fail, hget] at hreply
      cases hreply
    | some cycle =>
      have hended : cycle.claimToken = claim.claimToken ∧ cycle.state = .completed := by
        by_contra hnot
        refine htimely ⟨by rw [hget]; rfl, fun cycle' hcycle' htoken hcompleted => hnot ?_⟩
        cases hcycle'.symm.trans hget
        exact ⟨htoken, hcompleted⟩
      obtain ⟨row, hrow, hsame⟩ := h.same.exists_row hget
      obtain ⟨hids, hrow'⟩ := completed_step h.ids hrow (hsame.state.trans hended.2) (.fail (renamed f claim) errorType)
      refine ⟨claim.sessionCycleId, ?_, hids, row, hrow', hsame.state.trans hended.2⟩
      simp only [memoryStore, MemoryPaperSessionStore.fail, hget, if_pos hended.1]
      exact ⟨_, Dict.get?_set_self .., rfl⟩

end Step

/-! ### Runs -/

/-- A run with equal replies that ends with the same cycles is timely. -/
theorem Synced.along {f : String → String} (hf : Function.Injective f) {cycles : MemoryPaperSessionStore}
    {rows : List SessionCycleRow} (h : Synced f cycles rows) {run : List StoreCall}
    (hreplies : (memoryStore.outputs cycles run).map replyOf =
      (claimStore.outputs rows (run.map (·.rename f))).map replyOf)
    (hend : SameCycles f (memoryStore.exec cycles run) (claimStore.exec rows (run.map (·.rename f)))) :
    memoryStore.Along Timely cycles run := by
  induction run generalizing cycles rows with
  | nil => trivial
  | cons call run ih =>
    obtain ⟨hfirst, hrest⟩ := List.cons.inj hreplies
    have htimely : Timely cycles call := by
      by_contra hnot
      obtain ⟨id, hparted⟩ := h.step_of_not_timely hf hnot hfirst
      exact hparted.run run hrest hend
    exact ⟨htimely, ih (h.step hf htimely).1 hrest hend⟩

/-- **The stores agree** on a run just if every call of it is timely: then they give the same replies, and end with the
same cycles, their tokens renamed. -/
theorem stores_agree_iff {f : String → String} (hf : Function.Injective f) (run : List StoreCall) :
    ((memoryStore.outputs .empty run).map replyOf = (claimStore.outputs [] (run.map (·.rename f))).map replyOf ∧
        SameCycles f (memoryStore.exec .empty run) (claimStore.exec [] (run.map (·.rename f)))) ↔
      memoryStore.Along Timely .empty run := by
  constructor
  · rintro ⟨hreplies, hend⟩
    exact (synced_new f).along hf hreplies hend
  · intro htimely
    have hrun := Machine.simulation_along (M := memoryStore.observe replyOf) (N := claimStore.observe replyOf)
      (fun call => call.rename f) (fun cycles rows call (h : Synced f cycles rows) hcall => h.step hf hcall)
      (synced_new f) (Machine.along_observe replyOf |>.mpr htimely)
    rw [Machine.exec_observe, Machine.exec_observe, Machine.outputs_observe, Machine.outputs_observe] at hrun
    exact ⟨hrun.2, hrun.1.same⟩

/-! ### A claim that is completed after it failed -/

namespace Sample

/-- A claim that fails, and is completed. -/
def completedAfterFailure : List StoreCall :=
  [claimAt "token-1" 0, .fail (claimOf "token-1") "OSError", .complete (claimOf "token-1") result]

/-- A claim that is completed. -/
def completedOnce : List StoreCall := [claimAt "token-1" 0, .complete (claimOf "token-1") result]

end Sample

/-- The stores agree on a claim that is completed, with the tokens as they are. -/
theorem completed_once_agrees :
    (memoryStore.outputs .empty Sample.completedOnce).map replyOf =
        (claimStore.outputs [] (Sample.completedOnce.map (·.rename id))).map replyOf ∧
      SameCycles id (memoryStore.exec .empty Sample.completedOnce)
        (claimStore.exec [] (Sample.completedOnce.map (·.rename id))) :=
  (stores_agree_iff Function.injective_id Sample.completedOnce).mpr (by decide)

/-- A claim that has failed is completed: the store in memory takes it, and the durable one refuses it, whatever the
tokens are. -/
theorem completed_after_failure :
    (memoryStore.outputs .empty Sample.completedAfterFailure).map replyOf =
        [.claim .claimed (seconds 0), .done, .done] ∧
      ∀ f, (claimStore.outputs [] (Sample.completedAfterFailure.map (·.rename f))).map replyOf =
        [.claim .claimed (seconds 0), .done, .raised] :=
  ⟨by decide, fun f => by
    simp [Sample.completedAfterFailure, Sample.claimAt, Sample.claimOf, StoreCall.rename, renamed, Machine.outputs,
      claimStore, replyOf, PostgresPaperSessionStore.claim, PostgresPaperSessionStore.claimRow,
      PostgresPaperSessionStore.complete, PostgresPaperSessionStore.fail, Table.insertNew, SessionCycleRow.claim,
      SessionCycleRow.leased, SessionCycleRow.heldBy]⟩

end NanoDelta.Runtime
