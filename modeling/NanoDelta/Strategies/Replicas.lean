import Mathlib.Logic.Function.Basic
import NanoDelta.Library.Machine
import NanoDelta.Strategies.Postgres

/-!
# Replicas of the strategy registry

Several processes, each with a `PostgresStrategyRegistry` over one database, as a machine. A call is a list of
statements, between which the other processes run; any statement may fail, and then the call raises and its transaction
is rolled back. What a call writes is one row, locked from the write to the commit, so the write, the read back and the
commit are one step.

* `RegistryCall.write`: the checks in the dictionaries, the row, and what is read back. `cluster`: the machine.
* `advance_cases`: the tables change only by a write that is committed.
* `exec_ready`: before a revocation is written, its approval is in the dictionary under its own id and is stored.
-/

namespace NanoDelta.Strategies

open Library

/-! ### Calls -/

/-- A call of `PostgresStrategyRegistry` that writes. -/
inductive RegistryCall where
  | register (definition : StrategyDefinition)
  | recordValidation (result : ValidationResult)
  | recordApproval (approval : StrategyApproval)
  | revoke (approvalId reason : String)
  deriving DecidableEq

/-- A statement of a call: a read into the dictionaries, or the checks in memory with the write. -/
inductive RegistryStatement where
  | hydrateDefinition (identity : StrategyIdentity)
  | hydrateValidation (validationRunId : String)
  | hydrateApproval (approvalId : String)
  | write (call : RegistryCall)
  deriving DecidableEq

/-- The statements of a call, in their order. -/
def RegistryCall.statements : RegistryCall → List RegistryStatement
  | .register definition => [.hydrateDefinition definition.identity, .write (.register definition)]
  | .recordValidation result =>
    [.hydrateDefinition result.identity, .hydrateValidation result.validationRunId, .write (.recordValidation result)]
  | .recordApproval approval =>
    [.hydrateDefinition approval.identity, .hydrateValidation approval.validationRunId,
      .hydrateApproval approval.approvalId, .write (.recordApproval approval)]
  | .revoke approvalId reason => [.hydrateApproval approvalId, .write (.revoke approvalId reason)]

section Calls

variable (host : Host)

/-- `_hydrate_definition`. -/
def Artifacts.hydrateDefinition (self : Artifacts) (db : Research) (identity : StrategyIdentity) : Artifacts :=
  match self.definitions.get? identity, db.definitionOf (identity.key host) with
  | none, some definition => { self with definitions := self.definitions.set identity definition }
  | _, _ => self

/-- `_hydrate_validation`. -/
def Artifacts.hydrateValidation (self : Artifacts) (db : Research) (validationRunId : String) : Artifacts :=
  match self.validations.get? validationRunId, db.validationOf validationRunId with
  | none, some result => { self with validations := self.validations.set validationRunId result }
  | _, _ => self

/-- `_hydrate_approval`, with `force`. -/
def Artifacts.hydrateApproval (self : Artifacts) (db : Research) (approvalId : String) : Artifacts :=
  let approvals := self.approvals.erase approvalId
  match db.loadApproval approvalId with
  | .ok approval => { self with approvals := approvals.set approvalId approval }
  | .error _ => { self with approvals }

/-- The write of a call: the checks of `StrategyRegistry`, which change the dictionaries, then the row, then what is read
back. It returns the tables to be committed. -/
def RegistryCall.write (db : Research) : RegistryCall → EStateM PyError Artifacts Research
  | .register definition => do
    set (← Effect.ofExcept ((← get).register definition))
    let db ← Effect.ofExcept (db.insertDefinition host definition)
    let persisted ← Effect.ofExcept (db.loadDefinition host definition.identity)
    if persisted ≠ definition then throw (.valueError "strategy identity is immutable; publish a new version")
    else do
      modify fun s => { s with definitions := s.definitions.set definition.identity persisted }
      return db
  | .recordValidation result => do
    set (← Effect.ofExcept ((← get).recordValidation result))
    Effect.ofExcept (db.insertValidation host result)
  | .recordApproval approval => do
    set (← Effect.ofExcept ((← get).recordApproval approval))
    let db ← Effect.ofExcept (db.upsertApproval host approval)
    let persisted ← Effect.ofExcept (db.loadApproval approval.approvalId)
    if persisted ≠ approval then throw (.valueError "approval artifacts are immutable")
    else do
      modify fun s => { s with approvals := s.approvals.set approval.approvalId persisted }
      return db
  | .revoke approvalId reason => do
    let (revoked, artifacts) ← Effect.ofExcept ((← get).revoke approvalId reason)
    set artifacts
    let db ← Effect.ofExcept (db.upsertApproval host revoked)
    let persisted ← Effect.ofExcept (db.loadApproval approvalId)
    modify fun s => { s with approvals := s.approvals.set approvalId persisted }
    return db

/-- The checks of `StrategyRegistry` at the start of a write, which change the dictionaries also if the row is not
written. -/
def RegistryCall.check : RegistryCall → EStateM PyError Artifacts PUnit
  | .register definition => do set (← Effect.ofExcept ((← get).register definition))
  | .recordValidation result => do set (← Effect.ofExcept ((← get).recordValidation result))
  | .recordApproval approval => do set (← Effect.ofExcept ((← get).recordApproval approval))
  | .revoke approvalId reason => do set (← Effect.ofExcept ((← get).revoke approvalId reason)).2

/-! ### The machine -/

/-- A process: its dictionaries, and the statements of its call that are left. -/
structure Replica where
  artifacts : Artifacts := {}
  rest : List RegistryStatement := []

/-- The database and the processes. -/
structure Cluster where
  db : Research := {}
  replicas : ℕ → Replica := fun _ => {}

/-- Where the database fails: at the statement, or at the commit after it. -/
inductive DatabaseFault where
  | statement
  | commit

/-- What can happen. -/
inductive ClusterInput where
  /-- An idle process is called. -/
  | call (i : ℕ) (call : RegistryCall)
  /-- The next statement of a process. -/
  | advance (i : ℕ) (fault : Option DatabaseFault)
  /-- A process is started anew. -/
  | restart (i : ℕ)
  /-- The validation service stores evidence. -/
  | evidence (row : NseEvidenceRow)

/-- The error of a driver whose connection is lost. -/
def connectionLost : PyError := .databaseError "connection lost"

/-- The next statement of a process: its result if the call is over. -/
def Replica.advance (self : Replica) (db : Research) (fault : Option DatabaseFault) :
    Replica × Research × Option (Except PyError PUnit) :=
  match self.rest with
  | [] => (self, db, none)
  | .write call :: _ =>
    match fault with
    | some .statement =>
      match call.check self.artifacts with
      | .ok _ artifacts => (⟨artifacts, []⟩, db, some (.error connectionLost))
      | .error e artifacts => (⟨artifacts, []⟩, db, some (.error e))
    | some .commit =>
      match call.write host db self.artifacts with
      | .ok _ artifacts => (⟨artifacts, []⟩, db, some (.error connectionLost))
      | .error e artifacts => (⟨artifacts, []⟩, db, some (.error e))
    | none =>
      match call.write host db self.artifacts with
      | .ok db' artifacts => (⟨artifacts, []⟩, db', some (.ok ()))
      | .error e artifacts => (⟨artifacts, []⟩, db, some (.error e))
  | .hydrateDefinition identity :: rest =>
    if fault.isSome then (⟨self.artifacts, []⟩, db, some (.error connectionLost))
    else (⟨self.artifacts.hydrateDefinition host db identity, rest⟩, db, none)
  | .hydrateValidation validationRunId :: rest =>
    if fault.isSome then (⟨self.artifacts, []⟩, db, some (.error connectionLost))
    else (⟨self.artifacts.hydrateValidation db validationRunId, rest⟩, db, none)
  | .hydrateApproval approvalId :: rest =>
    if fault.isSome then
      (⟨{ self.artifacts with approvals := self.artifacts.approvals.erase approvalId }, []⟩, db,
        some (.error connectionLost))
    else (⟨self.artifacts.hydrateApproval db approvalId, rest⟩, db, none)

/-- The processes over one database. -/
def cluster : Machine Cluster ClusterInput (Option (Except PyError PUnit)) where
  step s
    | .call i call =>
      match (s.replicas i).rest with
      | [] => ({ s with replicas := Function.update s.replicas i { s.replicas i with rest := call.statements } }, none)
      | _ :: _ => (s, none)
    | .advance i fault =>
      let (replica, db, result) := (s.replicas i).advance host s.db fault
      ({ db, replicas := Function.update s.replicas i replica }, result)
    | .restart i => ({ s with replicas := Function.update s.replicas i {} }, none)
    | .evidence row => ({ s with db := { s.db with nseEvidence := s.db.nseEvidence ++ [row] } }, none)

/-! ### What a write does -/

section Writes

variable {host} {db db' : Research} {artifacts artifacts' : Artifacts}

theorem of_recordApproval {approval : StrategyApproval} (h : artifacts.recordApproval approval = .ok artifacts') :
    ∃ result, artifacts.validations.get? approval.validationRunId = some result ∧ result.identity = approval.identity ∧
      result.passed = true := by
  unfold Artifacts.recordApproval at h
  by_cases hdefined : (artifacts.definitions.get? approval.identity).isNone
  · rw [if_pos hdefined] at h
    cases h
  rw [if_neg hdefined] at h
  cases hfilter : (artifacts.validations.get? approval.validationRunId).filter fun v => v.identity = approval.identity with
  | none =>
    rw [hfilter] at h
    cases h
  | some result =>
    obtain ⟨hget, hidentity⟩ := Option.filter_eq_some_iff.mp hfilter
    rw [hfilter] at h
    dsimp only at h
    split_ifs at h with hpassed
    exact ⟨result, hget, of_decide_eq_true hidentity, by simpa using hpassed⟩

theorem of_revoke {approvalId reason : String} {revoked : StrategyApproval}
    (h : artifacts.revoke approvalId reason = .ok (revoked, artifacts')) :
    ∃ approval, artifacts.approvals.get? approvalId = some approval ∧
      revoked = { approval with state := .revoked, reason } := by
  unfold Artifacts.revoke at h
  cases hget : artifacts.approvals.get? approvalId with
  | none =>
    rw [hget] at h
    cases h
  | some approval =>
    rw [hget] at h
    obtain ⟨revoked, hrevoked, h⟩ := Effect.except_bind_eq_ok.mp h
    cases h
    unfold StrategyApproval.revoke at hrevoked
    split_ifs at hrevoked
    cases hrevoked
    exact ⟨approval, rfl, rfl⟩

variable (host db artifacts db') in
/-- What a write that returns has found in the dictionaries, and its row. -/
def RegistryCall.Written : RegistryCall → Prop
  | .register definition => db.insertDefinition host definition = .ok db'
  | .recordValidation result => db.insertValidation host result = .ok db'
  | .recordApproval approval => db.upsertApproval host approval = .ok db' ∧
      ∃ result, artifacts.validations.get? approval.validationRunId = some result ∧
        result.identity = approval.identity ∧ result.passed = true
  | .revoke approvalId reason => ∃ approval, artifacts.approvals.get? approvalId = some approval ∧
      db.upsertApproval host { approval with state := .revoked, reason } = .ok db'

/-- **The tables after a write**, by the call. -/
theorem write_ok {call : RegistryCall} (h : call.write host db artifacts = .ok db' artifacts') :
    call.Written host db db' artifacts := by
  cases call with
  | register definition =>
    obtain ⟨_, _, hget, h₁⟩ := Effect.bind_eq_ok.mp h
    cases hget
    obtain ⟨_, _, -, h₂⟩ := Effect.bind_eq_ok.mp h₁
    obtain ⟨_, _, -, h₃⟩ := Effect.bind_eq_ok.mp h₂
    obtain ⟨_, _, hinsert, h₄⟩ := Effect.bind_eq_ok.mp h₃
    obtain ⟨persisted, _, -, h₅⟩ := Effect.bind_eq_ok.mp h₄
    by_cases hsame : persisted ≠ definition
    · rw [if_pos hsame] at h₅
      cases h₅
    · rw [if_neg hsame] at h₅
      obtain ⟨_, _, -, h₆⟩ := Effect.bind_eq_ok.mp h₅
      cases h₆
      exact (Effect.ofExcept_eq_ok.mp hinsert).1
  | recordValidation result =>
    obtain ⟨_, _, hget, h₁⟩ := Effect.bind_eq_ok.mp h
    cases hget
    obtain ⟨_, _, -, h₂⟩ := Effect.bind_eq_ok.mp h₁
    obtain ⟨_, _, -, h₃⟩ := Effect.bind_eq_ok.mp h₂
    exact (Effect.ofExcept_eq_ok.mp h₃).1
  | recordApproval approval =>
    obtain ⟨_, _, hget, h₁⟩ := Effect.bind_eq_ok.mp h
    cases hget
    obtain ⟨_, _, hcheck, h₂⟩ := Effect.bind_eq_ok.mp h₁
    obtain ⟨_, _, -, h₃⟩ := Effect.bind_eq_ok.mp h₂
    obtain ⟨_, _, hupsert, h₄⟩ := Effect.bind_eq_ok.mp h₃
    obtain ⟨persisted, _, -, h₅⟩ := Effect.bind_eq_ok.mp h₄
    by_cases hsame : persisted ≠ approval
    · rw [if_pos hsame] at h₅
      cases h₅
    · rw [if_neg hsame] at h₅
      obtain ⟨_, _, -, h₆⟩ := Effect.bind_eq_ok.mp h₅
      cases h₆
      exact ⟨(Effect.ofExcept_eq_ok.mp hupsert).1, of_recordApproval (Effect.ofExcept_eq_ok.mp hcheck).1⟩
  | revoke approvalId reason =>
    obtain ⟨_, _, hget, h₁⟩ := Effect.bind_eq_ok.mp h
    cases hget
    obtain ⟨⟨revoked, _⟩, _, hcheck, h₂⟩ := Effect.bind_eq_ok.mp h₁
    obtain ⟨_, _, -, h₃⟩ := Effect.bind_eq_ok.mp h₂
    obtain ⟨_, _, hupsert, h₄⟩ := Effect.bind_eq_ok.mp h₃
    obtain ⟨_, _, -, h₅⟩ := Effect.bind_eq_ok.mp h₄
    obtain ⟨_, _, -, h₆⟩ := Effect.bind_eq_ok.mp h₅
    cases h₆
    obtain ⟨approval, happroval, rfl⟩ := of_revoke (Effect.ofExcept_eq_ok.mp hcheck).1
    exact ⟨approval, happroval, (Effect.ofExcept_eq_ok.mp hupsert).1⟩

theorem write_grows {call : RegistryCall} (h : call.write host db artifacts = .ok db' artifacts') : db.Grows db' := by
  have hwritten := write_ok h
  cases call with
  | register definition => exact (Research.insertDefinition_ok hwritten).2.2
  | recordValidation result => exact (Research.insertValidation_ok hwritten).2.2
  | recordApproval approval => exact Research.upsertApproval_grows hwritten.1
  | revoke approvalId reason =>
    obtain ⟨approval, -, hupsert⟩ := hwritten
    exact Research.upsertApproval_grows hupsert

variable (host) in
/-- **A step of a process** changes the tables only by a write that is committed. -/
theorem advance_cases (replica : Replica) (db : Research) (fault : Option DatabaseFault) :
    (replica.advance host db fault).2.1 = db ∨
      ∃ call rest artifacts', replica.rest = .write call :: rest ∧ fault = none ∧
        call.write host db replica.artifacts = .ok (replica.advance host db fault).2.1 artifacts' ∧
        (replica.advance host db fault).2.2 = some (.ok ()) := by
  unfold Replica.advance
  split
  · exact Or.inl rfl
  · rename_i call rest hrest
    split
    · split <;> exact Or.inl rfl
    · split <;> exact Or.inl rfl
    · split
      · rename_i db' artifacts' hwrite
        exact Or.inr ⟨call, rest, artifacts', hrest, rfl, hwrite, rfl⟩
      · exact Or.inl rfl
  · split <;> exact Or.inl rfl
  · split <;> exact Or.inl rfl
  · split <;> exact Or.inl rfl

variable (host) in
/-- A step of a process keeps what is stored. -/
theorem advance_grows (replica : Replica) (db : Research) (fault : Option DatabaseFault) :
    db.Grows (replica.advance host db fault).2.1 := by
  rcases advance_cases host replica db fault with h | ⟨call, rest, artifacts', -, -, h, -⟩
  · rw [h]
    exact .refl db
  · exact write_grows h

end Writes

/-! ### The processes between their statements -/

section Ready

variable {host} {db db' : Research} {replica : Replica}

/-- The statements left are the end of a call, and before the write of a revocation the approval is in the dictionary
under its own id and is stored. -/
structure Ready (db : Research) (replica : Replica) : Prop where
  rest : ∃ call : RegistryCall, replica.rest <:+ call.statements
  loaded : ∀ approvalId reason rest, replica.rest = .write (.revoke approvalId reason) :: rest →
    ∀ approval, replica.artifacts.approvals.get? approvalId = some approval →
      approval.approvalId = approvalId ∧ ∃ row ∈ db.approvals, row.approvalId = approvalId

theorem Ready.idle (artifacts : Artifacts) : Ready db ⟨artifacts, []⟩ where
  rest := ⟨.revoke "" "", List.nil_suffix⟩
  loaded _ _ _ h := nomatch h

/-- The other processes only add rows. -/
theorem Ready.mono (h : Ready db replica) (hgrows : db.Grows db') : Ready db' replica where
  rest := h.rest
  loaded approvalId reason rest hrest approval hget := by
    obtain ⟨hid, row, hrow, hrowId⟩ := h.loaded approvalId reason rest hrest approval hget
    obtain ⟨row', hrow', hrowId'⟩ := hgrows.approvals row hrow
    exact ⟨hid, row', hrow', hrowId'.trans hrowId⟩

/-- What stands before the write of a revocation is the read of its approval. -/
theorem before_revoke {call : RegistryCall} {statement : RegistryStatement} {approvalId reason : String}
    {rest : List RegistryStatement}
    (h : statement :: .write (.revoke approvalId reason) :: rest <:+ call.statements) :
    statement = .hydrateApproval approvalId := by
  cases call with
  | register definition => simp [RegistryCall.statements, List.suffix_cons_iff] at h
  | recordValidation result => simp [RegistryCall.statements, List.suffix_cons_iff] at h
  | recordApproval approval => simp [RegistryCall.statements, List.suffix_cons_iff] at h
  | revoke id why =>
    simp only [RegistryCall.statements, List.suffix_cons_iff, List.cons.injEq, RegistryStatement.write.injEq,
      RegistryCall.revoke.injEq] at h
    rcases h with ⟨rfl, ⟨rfl, -⟩, -⟩ | ⟨-, h⟩ | h
    · rfl
    · cases h
    · simp at h

/-- What is read back of an approval is stored under its id. -/
theorem stored_of_loadApproval {approvalId : String} {approval : StrategyApproval}
    (h : db.loadApproval approvalId = .ok approval) :
    approval.approvalId = approvalId ∧ ∃ row ∈ db.approvals, row.approvalId = approvalId := by
  unfold Research.loadApproval at h
  cases hfind : db.approvals.find? fun row => row.approvalId = approvalId with
  | none =>
    rw [hfind] at h
    cases h
  | some row =>
    rw [hfind, Option.bind_some] at h
    have hid : row.approvalId = approvalId := by simpa using List.find?_some hfind
    unfold Research.approvalFromRow at h
    cases hdefinition : db.definitionOf row.strategyKey with
    | none =>
      rw [hdefinition] at h
      cases h
    | some definition =>
      rw [hdefinition] at h
      cases h
      exact ⟨hid, row, List.mem_of_find?_eq_some hfind, hid⟩

/-- The read of an approval leaves nothing else under its id. -/
theorem stored_of_hydrateApproval {artifacts : Artifacts} {approvalId : String} {approval : StrategyApproval}
    (h : (artifacts.hydrateApproval db approvalId).approvals.get? approvalId = some approval) :
    approval.approvalId = approvalId ∧ ∃ row ∈ db.approvals, row.approvalId = approvalId := by
  unfold Artifacts.hydrateApproval at h
  dsimp only at h
  cases hload : db.loadApproval approvalId with
  | ok loaded =>
    rw [hload] at h
    dsimp only at h
    rw [Dict.get?_set, if_pos rfl] at h
    cases h
    exact stored_of_loadApproval hload
  | error e =>
    rw [hload] at h
    dsimp only at h
    rw [Dict.get?_erase, if_pos rfl] at h
    cases h

/-- **A step of a process** leaves it ready. -/
theorem Ready.advance (h : Ready db replica) (fault : Option DatabaseFault) :
    Ready (replica.advance host db fault).2.1 (replica.advance host db fault).1 := by
  have hgrows := advance_grows host replica db fault
  obtain ⟨call, hcall⟩ := h.rest
  revert hgrows
  unfold Replica.advance
  split
  · exact fun _ => h
  · intro _
    split
    · split <;> exact Ready.idle _
    · split <;> exact Ready.idle _
    · split <;> exact Ready.idle _
  · rename_i identity rest hrest
    intro _
    rw [hrest] at hcall
    split
    · exact Ready.idle _
    · refine ⟨⟨call, (List.suffix_cons _ _).trans hcall⟩, ?_⟩
      rintro approvalId reason rest' rfl
      exact nomatch before_revoke hcall
  · rename_i validationRunId rest hrest
    intro _
    rw [hrest] at hcall
    split
    · exact Ready.idle _
    · refine ⟨⟨call, (List.suffix_cons _ _).trans hcall⟩, ?_⟩
      rintro approvalId reason rest' rfl
      exact nomatch before_revoke hcall
  · rename_i readId rest hrest
    intro _
    rw [hrest] at hcall
    split
    · exact Ready.idle _
    · refine ⟨⟨call, (List.suffix_cons _ _).trans hcall⟩, ?_⟩
      rintro approvalId reason rest' rfl approval hget
      cases before_revoke hcall
      exact stored_of_hydrateApproval hget

/-- **The processes are ready** after every step of every process. -/
theorem cluster_ready (s : Cluster) (input : ClusterInput) (h : ∀ i, Ready s.db (s.replicas i)) :
    ∀ i, Ready ((cluster host).step s input).1.db (((cluster host).step s input).1.replicas i) := by
  intro j
  cases input with
  | call i call =>
    simp only [cluster]
    split
    · dsimp only
      rcases eq_or_ne j i with rfl | hne
      · rw [Function.update_self]
        refine ⟨⟨call, List.suffix_refl _⟩, ?_⟩
        intro approvalId reason rest hrest
        cases call <;> cases hrest
      · rw [Function.update_of_ne hne]
        exact h j
    · exact h j
  | advance i fault =>
    simp only [cluster]
    rcases eq_or_ne j i with rfl | hne
    · rw [Function.update_self]
      exact (h j).advance fault
    · rw [Function.update_of_ne hne]
      exact (h j).mono (advance_grows ..)
  | restart i =>
    simp only [cluster]
    rcases eq_or_ne j i with rfl | hne
    · rw [Function.update_self]
      exact Ready.idle _
    · rw [Function.update_of_ne hne]
      exact h j
  | evidence row => exact (h j).mono ⟨fun _ h => h, fun _ h => h, fun row h => ⟨row, h, rfl⟩⟩

variable (host) in
/-- So they are in every run from the start. -/
theorem exec_ready (inputs : List ClusterInput) (i : ℕ) :
    Ready ((cluster host).exec {} inputs).db (((cluster host).exec {} inputs).replicas i) :=
  Machine.exec_invariant (P := fun s : Cluster => ∀ i, Ready s.db (s.replicas i)) cluster_ready (fun _ => Ready.idle _) inputs i

end Ready

end Calls

end NanoDelta.Strategies
