import NanoDelta.Library.Machine
import NanoDelta.Runtime.PaperSession

/-!
# Claims on a session cycle

The calls of `PostgresPaperSessionStore` by any number of workers, in any order. Each call is
one transaction, so a run of the machine `claimStore` is an interleaving of the workers' calls.
A worker whose lease ran out may still complete or fail its claim after others have claimed
the cycle; the token of the claim decides whether that counts.

* `claims_are_fenced`: what any interleaving keeps. A completed cycle stays as it is, a leased
  one is not claimed, only the last claim can complete or fail the cycle, and every claim
  returns the time of the first one.
-/

namespace NanoDelta.Runtime

open Library

/-! ### Calls -/

/-- A call of the store. -/
inductive StoreCall where
  | claim (lease : ℤ) (token sessionCycleId : String) (featureRecordIds : List String)
      (eventTime claimedAt : Instant)
  | complete (claim : PaperSessionClaim) (result : PaperDecisionResult)
  | fail (claim : PaperSessionClaim) (errorType : String)

/-- What a call returns. -/
inductive StoreAnswer where
  | claim (claim : PaperSessionClaim)
  | done
  deriving DecidableEq

/-- The store, as a machine: a call that raises changes nothing. -/
def claimStore : Machine (List SessionCycleRow) StoreCall (Except PyError StoreAnswer) where
  step rows
    | .claim lease token sessionCycleId featureRecordIds eventTime claimedAt =>
      match PostgresPaperSessionStore.claim lease token sessionCycleId featureRecordIds eventTime claimedAt rows with
      | .ok (claim, rows') => (rows', .ok (.claim claim))
      | .error e => (rows, .error e)
    | .complete claim result =>
      match PostgresPaperSessionStore.complete claim result rows with
      | .ok rows' => (rows', .ok .done)
      | .error e => (rows, .error e)
    | .fail claim errorType => (PostgresPaperSessionStore.fail claim errorType rows, .ok .done)

/-- The row of a cycle. -/
def cycleRow (id : String) (rows : List SessionCycleRow) : Option SessionCycleRow :=
  rows.find? fun r => r.sessionCycleId = id

/-! ### What happened in a run -/

/-- The tokens that the claims of a run were given. -/
def tokensOf (calls : List StoreCall) : List String :=
  calls.filterMap fun
    | .claim _ token _ _ _ _ => some token
    | _ => none

/-- The time of the first claim of a cycle. -/
def firstClaim (id : String) (calls : List StoreCall) : Option Instant :=
  (calls.filterMap fun
    | .claim _ _ id' _ _ claimedAt => if id' = id then some claimedAt else none
    | _ => none).head?

/-- The `CLAIMED` results of a cycle, in order. -/
def claimedOf (id : String) (answers : List (Except PyError StoreAnswer)) : List PaperSessionClaim :=
  answers.filterMap fun
    | .ok (.claim claim) => if claim.sessionCycleId = id ∧ claim.state = .claimed then some claim else none
    | _ => none

/-- How many completions of a cycle succeeded. -/
def completionsOf (id : String) (calls : List StoreCall) (answers : List (Except PyError StoreAnswer)) : ℕ :=
  (calls.zip answers).countP fun
    | (.complete claim _, .ok _) => claim.sessionCycleId = id
    | _ => false

/-! ### What a call does to the row of a cycle -/

section Rows

variable {id : String} {rows rows' : List SessionCycleRow}

theorem cycleRow_map {f : SessionCycleRow → SessionCycleRow} (hf : ∀ r, (f r).sessionCycleId = r.sessionCycleId) :
    cycleRow id (rows.map f) = (cycleRow id rows).map f := by
  unfold cycleRow
  rw [List.find?_map]
  congr 2
  funext r
  simp only [Function.comp, hf]

theorem sessionCycleId_of_cycleRow {row : SessionCycleRow} (h : cycleRow id rows = some row) :
    row.sessionCycleId = id := by
  simpa using List.find?_some h

theorem cycleRow_eq_none : cycleRow id rows = none ↔ ∀ r ∈ rows, r.sessionCycleId ≠ id := by
  simp [cycleRow]

/-- The row that a first claim inserts. -/
def pendingRow (id : String) (featureRecordIds : List String) (eventTime claimedAt : Instant) : SessionCycleRow where
  sessionCycleId := id
  featureRecordIds := featureRecordIds
  eventTime := eventTime
  evaluatedAt := claimedAt
  state := .pending

/-- Inserting the row of a cycle, if there is none. -/
theorem cycleRow_insertNew (row : SessionCycleRow) :
    cycleRow id (Table.insertNew (fun r => r.sessionCycleId = row.sessionCycleId) row rows) =
      if row.sessionCycleId = id then some ((cycleRow id rows).getD row) else cycleRow id rows := by
  unfold Table.insertNew
  split
  · rename_i htaken
    split
    · rename_i hid
      subst hid
      obtain ⟨r, hr⟩ : ∃ r, cycleRow row.sessionCycleId rows = some r := by
        rw [← Option.isSome_iff_exists]
        simpa [cycleRow] using htaken
      rw [hr, Option.getD_some]
    · rfl
  · rename_i hfree
    split
    · rename_i hid
      subst hid
      have hnone : cycleRow row.sessionCycleId rows = none := by
        rw [cycleRow_eq_none]
        intro r hr he
        exact hfree ⟨r, hr, he⟩
      rw [hnone, Option.getD_none, cycleRow, List.find?_append, ← cycleRow, hnone]
      simp
    · rename_i hid
      rw [cycleRow, List.find?_append, ← cycleRow]
      simp [hid]

theorem nodup_insertNew (row : SessionCycleRow) (h : (rows.map SessionCycleRow.sessionCycleId).Nodup) :
    ((Table.insertNew (fun r => r.sessionCycleId = row.sessionCycleId) row rows).map
      SessionCycleRow.sessionCycleId).Nodup := by
  unfold Table.insertNew
  split
  · exact h
  · rename_i hfree
    rw [List.map_append, List.nodup_append]
    refine ⟨h, List.nodup_singleton _, ?_⟩
    intro a ha b hb hab
    obtain ⟨r, hr, rfl⟩ := List.mem_map.mp ha
    rw [List.map_singleton, List.mem_singleton] at hb
    exact hfree ⟨r, hr, hab.trans hb⟩

theorem map_sessionCycleId {f : SessionCycleRow → SessionCycleRow} (hf : ∀ r, (f r).sessionCycleId = r.sessionCycleId) :
    (rows.map f).map SessionCycleRow.sessionCycleId = rows.map SessionCycleRow.sessionCycleId := by
  rw [List.map_map]
  exact List.map_congr_left fun r _ => hf r

/-- The answer to a claim of a cycle with this row. -/
def claimState (row : SessionCycleRow) (t : Instant) : PaperSessionClaimState :=
  if row.state = .completed then .completed else if row.leased t then .busy else .claimed

/-- **What `claim` does**: with the row of the cycle, or a new one, it answers that the cycle is completed or
busy, or it claims it. -/
theorem claim_cases {lease : ℤ} {token : String} {featureRecordIds : List String} {eventTime t : Instant}
    {claim : PaperSessionClaim}
    (h : PostgresPaperSessionStore.claim lease token id featureRecordIds eventTime t rows = .ok (claim, rows')) :
    let row := (cycleRow id rows).getD (pendingRow id featureRecordIds eventTime t)
    claim.sessionCycleId = id ∧ claim.evaluatedAt = row.evaluatedAt ∧ claim.state = claimState row t ∧
    ((claim.state ≠ .claimed ∧ (row.state = .completed ∨ row.leased t) ∧ cycleRow id rows' = some row) ∨
      (claim.state = .claimed ∧ claim.claimToken = some token ∧ row.state ≠ .completed ∧ ¬ row.leased t ∧
        cycleRow id rows' = some (row.claim token (t + lease)))) ∧
    (∀ id' ≠ id, cycleRow id' rows' = cycleRow id' rows) ∧
    ((rows.map SessionCycleRow.sessionCycleId).Nodup → (rows'.map SessionCycleRow.sessionCycleId).Nodup) := by
  intro row
  unfold PostgresPaperSessionStore.claim at h
  simp only at h
  have hinserted : ∀ id', cycleRow id' (Table.insertNew (fun r => r.sessionCycleId = id)
      (pendingRow id featureRecordIds eventTime t) rows) = if id = id' then some ((cycleRow id' rows).getD
        (pendingRow id featureRecordIds eventTime t)) else cycleRow id' rows :=
    fun id' => cycleRow_insertNew (pendingRow id featureRecordIds eventTime t)
  have hfind := hinserted id
  rw [if_pos rfl] at hfind
  have hothers : ∀ id' ≠ id, cycleRow id' (Table.insertNew (fun r => r.sessionCycleId = id)
      (pendingRow id featureRecordIds eventTime t) rows) = cycleRow id' rows := by
    intro id' hne
    rw [hinserted, if_neg (Ne.symm hne)]
  have hnodup : (rows.map SessionCycleRow.sessionCycleId).Nodup → _ :=
    nodup_insertNew (pendingRow id featureRecordIds eventTime t)
  have hid : row.sessionCycleId = id := sessionCycleId_of_cycleRow hfind
  split at h
  · cases h
  · rename_i row' hrow'
    obtain rfl : row = row' := Option.some.inj (hfind.symm.trans hrow')
    unfold PostgresPaperSessionStore.claimRow at h
    split_ifs at h with hcompleted hleased
    · obtain ⟨prior, -, h₁⟩ := Effect.except_bind_eq_ok.mp h
      cases h₁
      exact ⟨hid, rfl, by rw [claimState, if_pos hcompleted], Or.inl ⟨by simp, Or.inl hcompleted, hfind⟩, hothers,
        hnodup⟩
    · cases h
      exact ⟨hid, rfl, by rw [claimState, if_neg hcompleted, if_pos hleased],
        Or.inl ⟨by simp, Or.inr hleased, hfind⟩, hothers, hnodup⟩
    · cases h
      have hkeep : ∀ r : SessionCycleRow, (if r.sessionCycleId = row.sessionCycleId then
          r.claim token (t + lease) else r).sessionCycleId = r.sessionCycleId := by
        intro r
        split <;> rfl
      refine ⟨hid, rfl, by rw [claimState, if_neg hcompleted, if_neg hleased],
        Or.inr ⟨rfl, rfl, hcompleted, hleased, ?_⟩, ?_, ?_⟩
      · rw [cycleRow_map hkeep]
        exact (congrArg _ hfind).trans (by rw [Option.map_some, if_pos rfl])
      · intro id' hne
        rw [cycleRow_map hkeep]
        refine (congrArg _ (hothers id' hne)).trans ?_
        cases hother : cycleRow id' rows with
        | none => rfl
        | some r =>
          have hr := sessionCycleId_of_cycleRow hother
          simp [hr, hid, hne]
      · intro hrows
        rw [map_sessionCycleId hkeep]
        exact hnodup hrows

/-- A claim returns if the result of a completed cycle can be read from its row. -/
theorem claim_returns (h : ∀ row, cycleRow id rows = some row → row.state = .completed → row.cycleMode.isSome = true)
    (lease : ℤ) (token : String) (featureRecordIds : List String) (eventTime t : Instant) :
    ∃ claim rows', PostgresPaperSessionStore.claim lease token id featureRecordIds eventTime t rows =
      .ok (claim, rows') := by
  unfold PostgresPaperSessionStore.claim
  simp only
  have hfind : cycleRow id (Table.insertNew (fun r => r.sessionCycleId = id)
      (pendingRow id featureRecordIds eventTime t) rows) = some ((cycleRow id rows).getD
        (pendingRow id featureRecordIds eventTime t)) :=
    (cycleRow_insertNew (pendingRow id featureRecordIds eventTime t)).trans (if_pos rfl)
  unfold cycleRow pendingRow at hfind
  rw [hfind]
  simp only
  unfold PostgresPaperSessionStore.claimRow
  split_ifs with hcompleted hleased
  · cases hrow : cycleRow id rows with
    | none =>
      unfold cycleRow at hrow
      rw [hrow] at hcompleted
      cases hcompleted
    | some row =>
      have hmode := h row hrow
      unfold cycleRow at hrow
      rw [hrow, Option.getD_some] at hcompleted ⊢
      obtain ⟨mode, hmode⟩ := Option.isSome_iff_exists.mp (hmode hcompleted)
      unfold PostgresPaperSessionStore.resultFromRow
      cases hid : row.decisionCycleId with
      | none => exact ⟨_, _, rfl⟩
      | some cycleId =>
        simp only [hmode]
        exact ⟨_, _, rfl⟩
  · exact ⟨_, _, rfl⟩
  · exact ⟨_, _, rfl⟩

theorem heldBy_iff {row : SessionCycleRow} {claim : PaperSessionClaim} :
    row.heldBy claim = true ↔ row.sessionCycleId = claim.sessionCycleId ∧ row.state = .running ∧
      row.claimToken = claim.claimToken ∧ row.claimToken.isSome = true := by
  simp [SessionCycleRow.heldBy, and_assoc]

/-- A row that a claim holds is the row of its cycle. -/
theorem cycleRow_of_heldBy (hnodup : (rows.map SessionCycleRow.sessionCycleId).Nodup) {row : SessionCycleRow}
    {claim : PaperSessionClaim} (hrow : row ∈ rows) (h : row.heldBy claim = true) :
    cycleRow claim.sessionCycleId rows = some row := by
  have hid := (heldBy_iff.mp h).1
  rw [← hid]
  exact Table.find?_eq_some_of_mem hnodup hrow

/-- The row of a cycle that was completed. -/
def completedRow (result : PaperDecisionResult) (row : SessionCycleRow) : SessionCycleRow :=
  { row with
    state := .completed, lockedUntil := none, decisionCycleId := some result.cycleId
    cycleMode := some result.mode, candidateCount := result.candidateCount
    allocationCount := result.allocationCount, riskDecisionCount := result.riskDecisionCount
    orderCount := result.orderCount, exitCount := result.exitCount }

/-- **When `complete` succeeds**: the claim holds the row of its cycle. -/
theorem complete_eq (hnodup : (rows.map SessionCycleRow.sessionCycleId).Nodup) (claim : PaperSessionClaim)
    (result : PaperDecisionResult) :
    PostgresPaperSessionStore.complete claim result rows =
      if ∃ row, cycleRow claim.sessionCycleId rows = some row ∧ row.heldBy claim = true then
        .ok (rows.map fun r => if r.heldBy claim then completedRow result r else r)
      else .error (.runtimeError "paper session claim was lost before completion") := by
  have hcount : (rows.countP fun r => r.heldBy claim) = 1 ↔ _ :=
    Table.countP_eq_one_iff hnodup fun r hr => (heldBy_iff.mp hr).1
  unfold PostgresPaperSessionStore.complete
  by_cases hheld : ∃ row, cycleRow claim.sessionCycleId rows = some row ∧ row.heldBy claim = true
  · rw [if_neg (not_not.mpr (hcount.mpr hheld)), if_pos hheld]
    rfl
  · rw [if_pos fun hone => hheld (hcount.mp hone), if_neg hheld]

/-- **What `complete` does**, if it succeeds: the claim held the row of its cycle, and the row is completed. -/
theorem complete_cases (hnodup : (rows.map SessionCycleRow.sessionCycleId).Nodup) {claim : PaperSessionClaim}
    {result : PaperDecisionResult} (h : PostgresPaperSessionStore.complete claim result rows = .ok rows') :
    (∃ row, cycleRow claim.sessionCycleId rows = some row ∧ row.heldBy claim = true ∧
      cycleRow claim.sessionCycleId rows' = some (completedRow result row)) ∧
    (∀ id' ≠ claim.sessionCycleId, cycleRow id' rows' = cycleRow id' rows) ∧
    (rows'.map SessionCycleRow.sessionCycleId).Nodup := by
  unfold PostgresPaperSessionStore.complete at h
  split_ifs at h with hcount
  have hmap : rows' = rows.map fun r => if r.heldBy claim then completedRow result r else r := by
    cases h
    rfl
  obtain ⟨row, hrow, hheld⟩ := List.countP_pos_iff.mp (by omega :
    0 < rows.countP fun r => r.heldBy claim)
  have hfind := cycleRow_of_heldBy hnodup hrow hheld
  have hkeep : ∀ r : SessionCycleRow, (if r.heldBy claim then completedRow result r else r).sessionCycleId =
      r.sessionCycleId := by
    intro r
    split <;> rfl
  rw [hmap]
  refine ⟨⟨row, hfind, hheld, ?_⟩, ?_, ?_⟩
  · rw [cycleRow_map hkeep, hfind, Option.map_some, if_pos hheld]
  · intro id' hne
    rw [cycleRow_map hkeep]
    cases hother : cycleRow id' rows with
    | none => rfl
    | some r =>
      have hr : ¬ r.heldBy claim = true := by
        rw [heldBy_iff, sessionCycleId_of_cycleRow hother]
        exact fun h => hne h.1
      rw [Option.map_some, if_neg hr]
  · rw [map_sessionCycleId hkeep]
    exact hnodup

/-- **What `fail` does**: the row that the claim holds, if any, is marked. -/
theorem fail_cases (id : String) (rows : List SessionCycleRow) (claim : PaperSessionClaim) (errorType : String) :
    cycleRow id (PostgresPaperSessionStore.fail claim errorType rows) =
      (cycleRow id rows).map (fun row => if row.heldBy claim then
        { row with
          state := .failed, lockedUntil := none, lastErrorType := some (String.ofList (errorType.toList.take 200)) }
        else row) ∧
    (PostgresPaperSessionStore.fail claim errorType rows).map SessionCycleRow.sessionCycleId =
      rows.map SessionCycleRow.sessionCycleId := by
  have hkeep : ∀ r : SessionCycleRow, (if r.heldBy claim then
      { r with
        state := .failed, lockedUntil := none, lastErrorType := some (String.ofList (errorType.toList.take 200)) }
      else r).sessionCycleId = r.sessionCycleId := by
    intro r
    split <;> rfl
  exact ⟨cycleRow_map hkeep, map_sessionCycleId hkeep⟩

end Rows

/-! ### What a run keeps -/

/-- What a run of calls, with its answers, says about the row of a cycle. -/
structure CycleKept (id : String) (calls : List StoreCall) (answers : List (Except PyError StoreAnswer))
    (rows : List SessionCycleRow) : Prop where
  ids : (rows.map SessionCycleRow.sessionCycleId).Nodup
  length : calls.length = answers.length
  /-- Without a row, nothing was claimed. -/
  fresh : cycleRow id rows = none →
    firstClaim id calls = none ∧ claimedOf id answers = [] ∧ completionsOf id calls answers = 0
  /-- The row has the time of the first claim and the token of the last one. -/
  row : ∀ row, cycleRow id rows = some row → firstClaim id calls = some row.evaluatedAt ∧
    row.claimToken = (claimedOf id answers).getLast?.bind PaperSessionClaim.claimToken ∧
    completionsOf id calls answers = (if row.state = .completed then 1 else 0) ∧
    (row.state = .completed → row.cycleMode.isSome = true)
  /-- Every claim returned that time. -/
  times : ∀ claim, .ok (.claim claim) ∈ answers → claim.sessionCycleId = id →
    firstClaim id calls = some claim.evaluatedAt
  /-- The claims have the tokens of their calls. -/
  tokens : ((claimedOf id answers).map PaperSessionClaim.claimToken).Sublist ((tokensOf calls).map some)

section Concat

variable (id : String) (calls : List StoreCall) (answers : List (Except PyError StoreAnswer)) (call : StoreCall)
  (answer : Except PyError StoreAnswer)

theorem firstClaim_concat :
    firstClaim id (calls ++ [call]) = (firstClaim id calls).or (firstClaim id [call]) := by
  unfold firstClaim
  rw [List.filterMap_append, List.head?_append]

theorem claimedOf_concat : claimedOf id (answers ++ [answer]) = claimedOf id answers ++ claimedOf id [answer] := by
  unfold claimedOf
  rw [List.filterMap_append]

theorem tokensOf_concat : tokensOf (calls ++ [call]) = tokensOf calls ++ tokensOf [call] := by
  unfold tokensOf
  rw [List.filterMap_append]

theorem completionsOf_concat (h : calls.length = answers.length) :
    completionsOf id (calls ++ [call]) (answers ++ [answer]) =
      completionsOf id calls answers + completionsOf id [call] [answer] := by
  unfold completionsOf
  rw [List.zip_append h, List.countP_append]

end Concat

section Step

variable {id : String} {calls : List StoreCall} {answers : List (Except PyError StoreAnswer)}
  {rows rows' : List SessionCycleRow}

/-- The time of the first claim does not change once there is a row. -/
theorem CycleKept.firstClaim_concat (h : CycleKept id calls answers rows) {row : SessionCycleRow}
    (hrow : cycleRow id rows = some row) (call : StoreCall) :
    firstClaim id (calls ++ [call]) = some row.evaluatedAt := by
  rw [Runtime.firstClaim_concat, (h.row row hrow).1, Option.some_or]

/-- The times that were returned are the first one after another call, too. -/
theorem CycleKept.times_concat (h : CycleKept id calls answers rows) {call : StoreCall}
    {answer : Except PyError StoreAnswer}
    (hnew : ∀ claim, answer = .ok (.claim claim) → claim.sessionCycleId = id →
      firstClaim id (calls ++ [call]) = some claim.evaluatedAt) :
    ∀ claim, .ok (.claim claim) ∈ answers ++ [answer] → claim.sessionCycleId = id →
      firstClaim id (calls ++ [call]) = some claim.evaluatedAt := by
  intro claim hclaim hid
  rcases List.mem_append.mp hclaim with hclaim | hclaim
  · rw [Runtime.firstClaim_concat, h.times claim hclaim hid, Option.some_or]
  · exact hnew claim (List.mem_singleton.mp hclaim).symm hid

/-- A call that leaves the row of the cycle, claims nothing and completes nothing. -/
theorem CycleKept.idle (h : CycleKept id calls answers rows) {call : StoreCall} {answer : Except PyError StoreAnswer}
    (hids : (rows'.map SessionCycleRow.sessionCycleId).Nodup) (hsame : cycleRow id rows' = cycleRow id rows)
    (hclaimed : claimedOf id [answer] = []) (hcompleted : completionsOf id [call] [answer] = 0)
    (hfirst : cycleRow id rows = none → firstClaim id [call] = none)
    (hanswer : ∀ claim, answer = .ok (.claim claim) → claim.sessionCycleId = id →
      ∃ row, cycleRow id rows = some row ∧ claim.evaluatedAt = row.evaluatedAt) :
    CycleKept id (calls ++ [call]) (answers ++ [answer]) rows' := by
  have hclaims : claimedOf id (answers ++ [answer]) = claimedOf id answers := by
    rw [claimedOf_concat, hclaimed, List.append_nil]
  have hcount : completionsOf id (calls ++ [call]) (answers ++ [answer]) = completionsOf id calls answers := by
    rw [completionsOf_concat id calls answers call answer h.length, hcompleted, Nat.add_zero]
  refine ⟨hids, by simp [h.length], ?_, ?_, h.times_concat ?_, ?_⟩
  · intro hnone
    rw [hsame] at hnone
    obtain ⟨hf, hc, hd⟩ := h.fresh hnone
    rw [hclaims, hcount, Runtime.firstClaim_concat, hf, hfirst hnone]
    exact ⟨rfl, hc, hd⟩
  · intro row hrow
    rw [hsame] at hrow
    rw [hclaims, hcount, h.firstClaim_concat hrow]
    exact ⟨rfl, (h.row row hrow).2⟩
  · intro claim hclaim hid
    obtain ⟨row, hrow, htime⟩ := hanswer claim hclaim hid
    rw [h.firstClaim_concat hrow, htime]
  · rw [hclaims, tokensOf_concat, List.map_append]
    exact h.tokens.trans (List.sublist_append_left _ _)

/-- A claim. -/
theorem CycleKept.claim (h : CycleKept id calls answers rows) {lease : ℤ} {token id' : String}
    {featureRecordIds : List String} {eventTime t : Instant} {claim : PaperSessionClaim}
    (hclaim : PostgresPaperSessionStore.claim lease token id' featureRecordIds eventTime t rows =
      .ok (claim, rows')) :
    CycleKept id (calls ++ [.claim lease token id' featureRecordIds eventTime t])
      (answers ++ [.ok (.claim claim)]) rows' := by
  obtain ⟨hid, htime, -, hcases, hothers, hids⟩ := claim_cases hclaim
  by_cases hsame : id' = id
  · subst hsame
    rcases hcases with ⟨hstate, hwhy, hrow⟩ | ⟨hstate, htoken, hcompleted, -, hrow⟩
    · -- the cycle is completed or leased, so its row was there
      cases hbefore : cycleRow id' rows with
      | none =>
        rw [hbefore, Option.getD_none] at hwhy
        rcases hwhy with hwhy | ⟨hwhy, -⟩
        · cases hwhy
        · cases hwhy
      | some row =>
        rw [hbefore, Option.getD_some] at hrow htime
        refine h.idle (hids h.ids) (hrow.trans hbefore.symm) ?_ rfl (fun hnone => ?_) ?_
        · simp [claimedOf, hstate]
        · rw [hbefore] at hnone
          cases hnone
        · rintro claim' hanswer -
          cases hanswer
          exact ⟨row, hbefore, htime⟩
    · have hfirst : firstClaim id' (calls ++ [.claim lease token id' featureRecordIds eventTime t]) =
          some claim.evaluatedAt := by
        rw [htime]
        cases hbefore : cycleRow id' rows with
        | none =>
          rw [Runtime.firstClaim_concat, (h.fresh hbefore).1, Option.none_or]
          simp [firstClaim, pendingRow]
        | some row => exact h.firstClaim_concat hbefore _
      have hclaims : claimedOf id' (answers ++ [.ok (.claim claim)]) = claimedOf id' answers ++ [claim] := by
        rw [claimedOf_concat]
        simp [claimedOf, hid, hstate]
      refine ⟨hids h.ids, by simp [h.length], ?_, ?_, h.times_concat ?_, ?_⟩
      · intro hnone
        rw [hrow] at hnone
        cases hnone
      · intro row' hrow'
        rw [hrow] at hrow'
        cases hrow'
        refine ⟨hfirst.trans (congrArg some htime), ?_, ?_, ?_⟩
        · rw [hclaims, List.getLast?_append]
          simp [SessionCycleRow.claim, htoken]
        · rw [completionsOf_concat id' calls answers _ _ h.length]
          have hzero : completionsOf id' calls answers = 0 := by
            cases hbefore : cycleRow id' rows with
            | none => exact (h.fresh hbefore).2.2
            | some row =>
              rw [hbefore, Option.getD_some] at hcompleted
              rw [(h.row row hbefore).2.2.1, if_neg hcompleted]
          rw [hzero]
          rfl
        · intro hstate'
          cases hstate'
      · rintro claim' hanswer -
        cases hanswer
        exact hfirst
      · rw [hclaims, tokensOf_concat, List.map_append, List.map_append]
        refine h.tokens.append ?_
        simp [tokensOf, htoken]
  · refine h.idle (hids h.ids) (hothers id (Ne.symm hsame)) ?_ rfl (fun _ => ?_) ?_
    · simp [claimedOf, hid, hsame]
    · simp [firstClaim, hsame]
    · rintro claim' hanswer hid'
      cases hanswer
      exact absurd (hid.symm.trans hid') hsame

/-- A completion that succeeds. -/
theorem CycleKept.complete (h : CycleKept id calls answers rows) {claim : PaperSessionClaim}
    {result : PaperDecisionResult} (hcomplete : PostgresPaperSessionStore.complete claim result rows = .ok rows') :
    CycleKept id (calls ++ [.complete claim result]) (answers ++ [.ok .done]) rows' := by
  obtain ⟨⟨row, hrow, hheld, hrow'⟩, hothers, hids⟩ := complete_cases h.ids hcomplete
  by_cases hsame : claim.sessionCycleId = id
  · subst hsame
    obtain ⟨hfirst, htoken, hcount, -⟩ := h.row row hrow
    have hclaims : claimedOf claim.sessionCycleId (answers ++ [.ok .done]) = claimedOf claim.sessionCycleId answers := by
      rw [claimedOf_concat]
      simp [claimedOf]
    refine ⟨hids, by simp [h.length], ?_, ?_, h.times_concat ?_, ?_⟩
    · intro hnone
      rw [hrow'] at hnone
      cases hnone
    · intro row₁ hrow₁
      rw [hrow'] at hrow₁
      cases hrow₁
      refine ⟨h.firstClaim_concat hrow _, ?_, ?_, fun _ => rfl⟩
      · rw [hclaims]
        exact htoken
      · -- the row was running, so this is the first completion
        have hrunning : row.state ≠ .completed := by
          rw [(heldBy_iff.mp hheld).2.1]
          simp
        rw [completionsOf_concat _ calls answers _ _ h.length, hcount, if_neg hrunning]
        simp [completionsOf, completedRow]
    · intro claim' hanswer
      cases hanswer
    · rw [hclaims, tokensOf_concat, List.map_append]
      exact h.tokens.trans (List.sublist_append_left _ _)
  · refine h.idle hids (hothers id (Ne.symm hsame)) rfl ?_ (fun _ => rfl) ?_
    · simp [completionsOf, hsame]
    · intro claim' hanswer
      cases hanswer

/-- A failure that is reported. -/
theorem CycleKept.fail (h : CycleKept id calls answers rows) (claim : PaperSessionClaim) (errorType : String) :
    CycleKept id (calls ++ [.fail claim errorType]) (answers ++ [.ok .done])
      (PostgresPaperSessionStore.fail claim errorType rows) := by
  obtain ⟨hrow', hmap⟩ := fail_cases id rows claim errorType
  have hids : ((PostgresPaperSessionStore.fail claim errorType rows).map SessionCycleRow.sessionCycleId).Nodup :=
    hmap ▸ h.ids
  by_cases hheld : ∃ row, cycleRow id rows = some row ∧ row.heldBy claim = true
  · obtain ⟨row, hrow, hheld⟩ := hheld
    rw [hrow, Option.map_some, if_pos hheld] at hrow'
    obtain ⟨hfirst, htoken, hcount, -⟩ := h.row row hrow
    have hclaims : claimedOf id (answers ++ [.ok .done]) = claimedOf id answers := by
      rw [claimedOf_concat]
      simp [claimedOf]
    refine ⟨hids, by simp [h.length], ?_, ?_, h.times_concat ?_, ?_⟩
    · intro hnone
      rw [hrow'] at hnone
      cases hnone
    · intro row₁ hrow₁
      rw [hrow'] at hrow₁
      cases hrow₁
      refine ⟨h.firstClaim_concat hrow _, ?_, ?_, fun hstate => by cases hstate⟩
      · rw [hclaims]
        exact htoken
      · have hrunning : row.state ≠ .completed := by
          rw [(heldBy_iff.mp hheld).2.1]
          simp
        rw [completionsOf_concat _ calls answers _ _ h.length, hcount, if_neg hrunning]
        rfl
    · intro claim' hanswer
      cases hanswer
    · rw [hclaims, tokensOf_concat, List.map_append]
      exact h.tokens.trans (List.sublist_append_left _ _)
  · refine h.idle hids ?_ rfl rfl (fun _ => rfl) ?_
    · rw [hrow']
      cases hrow : cycleRow id rows with
      | none => rfl
      | some row =>
        have hnot : ¬ row.heldBy claim = true := fun hh => hheld ⟨row, hrow, hh⟩
        rw [Option.map_some, if_neg hnot]
    · intro claim' hanswer
      cases hanswer

/-- In a run, a claim never raises. -/
theorem CycleKept.claim_returns (h : CycleKept id calls answers rows) (lease : ℤ) (token : String)
    (featureRecordIds : List String) (eventTime t : Instant) :
    ∃ claim rows', PostgresPaperSessionStore.claim lease token id featureRecordIds eventTime t rows =
      .ok (claim, rows') :=
  Runtime.claim_returns (fun row hrow => (h.row row hrow).2.2.2) lease token featureRecordIds eventTime t

/-- One call. -/
theorem CycleKept.step (h : CycleKept id calls answers rows) (call : StoreCall) :
    CycleKept id (calls ++ [call]) (answers ++ [(claimStore.step rows call).2]) (claimStore.step rows call).1 := by
  cases call with
  | claim lease token id' featureRecordIds eventTime t =>
    simp only [claimStore]
    cases hclaim : PostgresPaperSessionStore.claim lease token id' featureRecordIds eventTime t rows with
    | ok r => exact h.claim hclaim
    | error e =>
      have hother : id' ≠ id := by
        rintro rfl
        obtain ⟨claim, rows', hreturns⟩ := h.claim_returns lease token featureRecordIds eventTime t
        rw [hclaim] at hreturns
        cases hreturns
      refine h.idle h.ids rfl rfl rfl (fun _ => ?_) ?_
      · simp [firstClaim, hother]
      · intro claim hanswer
        cases hanswer
  | complete claim result =>
    simp only [claimStore]
    cases hcomplete : PostgresPaperSessionStore.complete claim result rows with
    | ok rows' => exact h.complete hcomplete
    | error e =>
      refine h.idle h.ids rfl rfl rfl (fun _ => rfl) ?_
      intro claim' hanswer
      cases hanswer
  | fail claim errorType => exact h.fail claim errorType

/-- A completed row stays as it is. -/
theorem completed_step (hids : (rows.map SessionCycleRow.sessionCycleId).Nodup) {row : SessionCycleRow}
    (hrow : cycleRow id rows = some row) (hstate : row.state = .completed) (call : StoreCall) :
    ((claimStore.step rows call).1.map SessionCycleRow.sessionCycleId).Nodup ∧
      cycleRow id (claimStore.step rows call).1 = some row := by
  cases call with
  | claim lease token id' featureRecordIds eventTime t =>
    simp only [claimStore]
    cases hclaim : PostgresPaperSessionStore.claim lease token id' featureRecordIds eventTime t rows with
    | error e => exact ⟨hids, hrow⟩
    | ok r =>
      obtain ⟨-, -, -, hcases, hothers, hids'⟩ := claim_cases hclaim
      refine ⟨hids' hids, ?_⟩
      by_cases hsame : id' = id
      · subst hsame
        rw [hrow, Option.getD_some] at hcases
        rcases hcases with ⟨-, -, hrow'⟩ | ⟨-, -, hnot, -⟩
        · exact hrow'
        · exact absurd hstate hnot
      · exact (hothers id (Ne.symm hsame)).trans hrow
  | complete claim result =>
    simp only [claimStore]
    cases hcomplete : PostgresPaperSessionStore.complete claim result rows with
    | error e => exact ⟨hids, hrow⟩
    | ok rows' =>
      obtain ⟨⟨row₁, hrow₁, hheld, -⟩, hothers, hids'⟩ := complete_cases hids hcomplete
      refine ⟨hids', (hothers id ?_).trans hrow⟩
      rintro rfl
      rw [hrow] at hrow₁
      cases hrow₁
      rw [(heldBy_iff.mp hheld).2.1] at hstate
      cases hstate
  | fail claim errorType =>
    obtain ⟨hrow', hmap⟩ := fail_cases id rows claim errorType
    refine ⟨hmap ▸ hids, hrow'.trans ?_⟩
    have hnot : ¬ row.heldBy claim = true := by
      rw [heldBy_iff, hstate]
      simp
    rw [hrow, Option.map_some, if_neg hnot]

end Step

/-- What every run keeps. -/
theorem cycleKept_run (id : String) (calls : List StoreCall) :
    CycleKept id calls (claimStore.outputs [] calls) (claimStore.exec [] calls) := by
  induction calls using List.reverseRecOn with
  | nil =>
    refine ⟨List.nodup_nil, rfl, fun _ => ⟨rfl, rfl, rfl⟩, ?_, ?_, List.Sublist.refl _⟩
    · intro row hrow
      cases hrow
    · intro claim hclaim
      cases hclaim
  | append_singleton calls call ih =>
    rw [Machine.outputs_concat, Machine.exec_concat]
    exact ih.step call

/-- A completed row stays as it is through any further calls. -/
theorem completed_exec {id : String} {rows : List SessionCycleRow}
    (hids : (rows.map SessionCycleRow.sessionCycleId).Nodup) {row : SessionCycleRow}
    (hrow : cycleRow id rows = some row) (hstate : row.state = .completed) (later : List StoreCall) :
    cycleRow id (claimStore.exec rows later) = some row := by
  refine (Machine.exec_invariant (P := fun rows => (rows.map SessionCycleRow.sessionCycleId).Nodup ∧
    cycleRow id rows = some row) ?_ ⟨hids, hrow⟩ later).2
  exact fun rows call h => completed_step h.1 h.2 hstate call

/-- The last claim is the one whose token the row has. -/
theorem CycleKept.last_of_heldBy {id : String} {calls : List StoreCall}
    {answers : List (Except PyError StoreAnswer)} {rows : List SessionCycleRow}
    (h : CycleKept id calls answers rows) {row : SessionCycleRow} (hrow : cycleRow id rows = some row)
    {claim : PaperSessionClaim} (hheld : row.heldBy claim = true) :
    ∃ last, (claimedOf id answers).getLast? = some last ∧ last.claimToken = claim.claimToken := by
  obtain ⟨-, -, htoken, hsome⟩ := heldBy_iff.mp hheld
  have hlast := (h.row row hrow).2.1
  cases hclaims : (claimedOf id answers).getLast? with
  | none =>
    rw [hclaims] at hlast
    rw [hlast] at hsome
    cases hsome
  | some last =>
    rw [hclaims] at hlast
    exact ⟨last, rfl, hlast.symm.trans htoken⟩

/-- A claim after which the cycle was claimed again holds nothing. -/
theorem CycleKept.stale {id : String} {calls : List StoreCall} {answers : List (Except PyError StoreAnswer)}
    {rows : List SessionCycleRow} (h : CycleKept id calls answers rows) (htokens : (tokensOf calls).Nodup)
    {older newer : List PaperSessionClaim} {claim : PaperSessionClaim}
    (hclaims : claimedOf id answers = older ++ claim :: newer) (hnewer : newer ≠ []) :
    ∀ row ∈ rows, ¬ row.heldBy claim = true := by
  intro row hrow hheld
  have hid : claim.sessionCycleId = id := by
    have hmem : claim ∈ claimedOf id answers := by
      rw [hclaims]
      simp
    obtain ⟨answer, -, hanswer⟩ := List.mem_filterMap.mp hmem
    split at hanswer
    · split_ifs at hanswer with hof
      cases hanswer
      exact hof.1
    · cases hanswer
  have hfind : cycleRow id rows = some row := hid ▸ cycleRow_of_heldBy h.ids hrow hheld
  obtain ⟨last, hlast, htoken⟩ := h.last_of_heldBy hfind hheld
  have hnodup : ((claimedOf id answers).map PaperSessionClaim.claimToken).Nodup :=
    h.tokens.nodup (htokens.map (Option.some_injective _))
  -- the last claim is among the newer ones, so its token is another one
  have hmem : last ∈ newer := by
    rw [hclaims, List.getLast?_append, List.getLast?_cons] at hlast
    cases hnew : newer.getLast? with
    | none => exact absurd (List.getLast?_eq_none_iff.mp hnew) hnewer
    | some x =>
      rw [hnew] at hlast
      simp only [Option.getD_some, Option.some_or, Option.some.injEq] at hlast
      rw [← hlast]
      exact List.mem_of_getLast? hnew
  rw [hclaims, List.map_append, List.map_cons, List.nodup_append] at hnodup
  have hnot := (List.nodup_cons.mp hnodup.2.1).1
  exact hnot (List.mem_map.mpr ⟨last, hmem, htoken⟩)

/-- **Claims are fenced by their tokens.** For any interleaving of the calls of any number of workers, with
distinct tokens, and for any cycle:
* a completed row never changes again;
* while the row is running under a lease, a claim does not claim the cycle;
* a completion that succeeds has the token of the last claim, and the row was running;
* at most one completion of the cycle succeeds;
* a claim after which the cycle was claimed again can neither fail nor complete it;
* every claim returns, with the time of the first claim of the cycle. -/
theorem claims_are_fenced (calls : List StoreCall) (htokens : (tokensOf calls).Nodup) (id : String) :
    let rows := claimStore.exec [] calls
    let answers := claimStore.outputs [] calls
    (∀ row, cycleRow id rows = some row → row.state = .completed →
      ∀ later, cycleRow id (claimStore.exec rows later) = some row) ∧
    (∀ row, cycleRow id rows = some row → ∀ t, row.leased t → ∀ lease token featureRecordIds eventTime claim,
      (claimStore.step rows (.claim lease token id featureRecordIds eventTime t)).2 = .ok (.claim claim) →
      claim.state ≠ .claimed) ∧
    (∀ claim result, claim.sessionCycleId = id → (claimStore.step rows (.complete claim result)).2 = .ok .done →
      (∃ row, cycleRow id rows = some row ∧ row.state = .running) ∧
      ∃ last, (claimedOf id answers).getLast? = some last ∧ last.claimToken = claim.claimToken) ∧
    completionsOf id calls answers ≤ 1 ∧
    (∀ older claim newer, claimedOf id answers = older ++ claim :: newer → newer ≠ [] →
      (∀ errorType, (claimStore.step rows (.fail claim errorType)).1 = rows) ∧
      ∀ result, (claimStore.step rows (.complete claim result)).2 ≠ .ok .done) ∧
    (∀ lease token featureRecordIds eventTime t, ∃ claim,
      (claimStore.step rows (.claim lease token id featureRecordIds eventTime t)).2 = .ok (.claim claim) ∧
      some claim.evaluatedAt = firstClaim id (calls ++ [.claim lease token id featureRecordIds eventTime t])) ∧
    (∀ claim, .ok (.claim claim) ∈ answers → claim.sessionCycleId = id →
      some claim.evaluatedAt = firstClaim id calls) := by
  intro rows answers
  have hkept : CycleKept id calls answers rows := cycleKept_run id calls
  refine ⟨fun row hrow hstate => completed_exec hkept.ids hrow hstate, ?_, ?_, ?_, ?_, ?_, ?_⟩
  · intro row hrow t hleased lease token featureRecordIds eventTime claim hanswer
    simp only [claimStore] at hanswer
    cases hclaim : PostgresPaperSessionStore.claim lease token id featureRecordIds eventTime t rows with
    | error e => rw [hclaim] at hanswer; cases hanswer
    | ok r =>
      rw [hclaim] at hanswer
      cases hanswer
      obtain ⟨-, -, -, hcases, -, -⟩ := claim_cases hclaim
      rw [hrow, Option.getD_some] at hcases
      rcases hcases with ⟨hstate, -⟩ | ⟨-, -, -, hnot, -⟩
      · exact hstate
      · exact absurd hleased hnot
  · intro claim result hid hanswer
    subst hid
    simp only [claimStore] at hanswer
    cases hcomplete : PostgresPaperSessionStore.complete claim result rows with
    | error e => rw [hcomplete] at hanswer; cases hanswer
    | ok rows' =>
      obtain ⟨⟨row, hrow, hheld, -⟩, -⟩ := complete_cases hkept.ids hcomplete
      exact ⟨⟨row, hrow, (heldBy_iff.mp hheld).2.1⟩, hkept.last_of_heldBy hrow hheld⟩
  · cases hrow : cycleRow id rows with
    | none => exact (hkept.fresh hrow).2.2.le.trans (Nat.zero_le _)
    | some row =>
      rw [(hkept.row row hrow).2.2.1]
      split <;> omega
  · intro older claim newer hclaims hnewer
    have hstale := hkept.stale htokens hclaims hnewer
    constructor
    · intro errorType
      show PostgresPaperSessionStore.fail claim errorType rows = rows
      unfold PostgresPaperSessionStore.fail
      refine (List.map_congr_left fun r hr => ?_).trans (List.map_id rows)
      rw [if_neg (hstale r hr)]
      rfl
    · intro result hanswer
      simp only [claimStore] at hanswer
      cases hcomplete : PostgresPaperSessionStore.complete claim result rows with
      | error e => rw [hcomplete] at hanswer; cases hanswer
      | ok rows' =>
        obtain ⟨⟨row, hrow, hheld, -⟩, -⟩ := complete_cases hkept.ids hcomplete
        exact hstale row (List.mem_of_find?_eq_some hrow) hheld
  · intro lease token featureRecordIds eventTime t
    obtain ⟨claim, rows', hclaim⟩ := hkept.claim_returns lease token featureRecordIds eventTime t
    refine ⟨claim, by simp only [claimStore, hclaim], ?_⟩
    have hid := (claim_cases hclaim).1
    exact ((hkept.claim hclaim).times claim (by simp) hid).symm
  · exact fun claim hclaim hid => (hkept.times claim hclaim hid).symm

namespace Sample

/-- A claim of the sample cycle, under a lease of five minutes. -/
def claimAt (token : String) (t : ℤ) : StoreCall :=
  .claim (seconds 300) token "cycle-1" ["gold-1"] 0 (seconds t)

/-- What the sample cycle gave. -/
def result : PaperDecisionResult := ⟨.nse, "decision-cycle-1", .normal, 1, 1, 1, 1, 0⟩

/-- What a claim of the sample cycle returned. -/
def claimOf (token : String) : PaperSessionClaim := ⟨.claimed, "cycle-1", seconds 0, some token, none⟩

/-- A worker claims the cycle, another one finds it leased and takes it over when the lease has run out; then
the first one reports a failure, the second one completes, and the first one tries to. -/
def takeover : List StoreCall :=
  [claimAt "token-1" 0, claimAt "token-2" 100, claimAt "token-3" 400, .fail (claimOf "token-1") "TimeoutError",
    .complete (claimOf "token-3") result, .complete (claimOf "token-1") result]

end Sample

/-- The worker that took the cycle over completes it, and the one that lost it does not. -/
theorem takeover_is_fenced :
    (tokensOf Sample.takeover).Nodup ∧
    claimStore.outputs [] Sample.takeover =
      [.ok (.claim (Sample.claimOf "token-1")), .ok (.claim ⟨.busy, "cycle-1", seconds 0, none, none⟩),
        .ok (.claim (Sample.claimOf "token-3")), .ok .done, .ok .done,
        .error (.runtimeError "paper session claim was lost before completion")] ∧
    completionsOf "cycle-1" Sample.takeover (claimStore.outputs [] Sample.takeover) = 1 := by
  have htokens : (tokensOf Sample.takeover).Nodup := by decide
  have hsome : 0 < completionsOf "cycle-1" Sample.takeover (claimStore.outputs [] Sample.takeover) := by
    decide +kernel
  have hone := (claims_are_fenced Sample.takeover htokens "cycle-1").2.2.2.1
  exact ⟨htokens, by decide +kernel, le_antisymm hone hsome⟩

end NanoDelta.Runtime
