import NanoDelta.DecisionsPostgres
import NanoDelta.Library.Filing
import NanoDelta.Library.Machine

/-!
# Two decision ledgers

The ledger in memory and the durable one take the same calls. An id that comes again with what it had is no
news to either. With something else, the ledger in memory refuses the call and the durable one keeps what it has.

* `ledgers_agree_iff`: they raise on the same calls and hold the same records just in the runs in which no id
  comes with something else.
* `decision_at_another_time`: a decision that is written again a minute later.
-/

namespace NanoDelta.Decisions

open Library

/-! ### Calls -/

/-- A call of a ledger. -/
inductive LedgerCall where
  /-- `append(decision)`. -/
  | append (decision : Decision)
  /-- `append_candidate(candidate, decision)`. -/
  | appendCandidate (candidate : SignalCandidate) (decision : Decision)

/-- What a call runs. -/
def LedgerCall.program {Λ : Type} (ledger : DecisionLedger Λ) : LedgerCall → EStateM PyError Λ Unit
  | .append decision => ledger.append decision
  | .appendCandidate candidate decision => ledger.appendCandidate candidate decision

/-- A ledger as a machine. The output of a call is whether it returned. -/
def calls {Λ : Type} (ledger : DecisionLedger Λ) : Machine Λ LedgerCall Bool where
  step s call :=
    match call.program ledger s with
    | .ok _ s' => (s', true)
    | .error _ s' => (s', false)

/-- The ledger in memory, call by call. -/
abbrev inMemory : Machine InMemoryDecisionLedger LedgerCall Bool := calls InMemoryDecisionLedger.ledger

/-- The durable ledger, call by call. -/
abbrev durable : Machine ControlTables LedgerCall Bool := calls PostgresDecisionLedger.ledger

/-! ### What a ledger holds -/

/-- A decision with its metrics as a map. -/
def Decision.withMap (decision : Decision) : Decision :=
  { decision with metrics := PostgresDecisionLedger.jsonObject decision.metrics }

/-- A candidate with its evidence as a map. -/
def SignalCandidate.withMap (candidate : SignalCandidate) : SignalCandidate :=
  { candidate with evidence := PostgresDecisionLedger.jsonObject candidate.evidence }

/-- `InMemoryDecisionLedger.for_cycle`. -/
def InMemoryDecisionLedger.forCycle (self : InMemoryDecisionLedger) (cycleId : String) : List Decision :=
  self.decisions.values.filter fun d => d.cycleId = cycleId

/-- `PostgresDecisionLedger.for_cycle`. -/
def PostgresDecisionLedger.forCycle (tables : ControlTables) (cycleId : String) : List Decision :=
  (tables.decisionEvents.filter fun d => d.cycleId = cycleId).insertionSort fun a b =>
    a.occurredAt < b.occurredAt ∨ a.occurredAt = b.occurredAt ∧ a.decisionId ≤ b.decisionId

/-- The two ledgers hold the same decisions in every cycle and the same candidates, maps taken as maps. -/
structure SameRecords (memory : InMemoryDecisionLedger) (tables : ControlTables) : Prop where
  decisions : ∀ cycleId d, d ∈ (memory.forCycle cycleId).map Decision.withMap ↔
    d ∈ PostgresDecisionLedger.forCycle tables cycleId
  candidates : ∀ c, c ∈ memory.candidates.values.map SignalCandidate.withMap ↔ c ∈ tables.signalCandidates

/-- A decision that the ledger has under its id is this one. -/
def KnownDecision (memory : InMemoryDecisionLedger) (decision : Decision) : Prop :=
  ∀ existing ∈ memory.decisions.get? decision.decisionId, existing = decision

/-- A candidate that the ledger has under its id is this one. -/
def KnownCandidate (memory : InMemoryDecisionLedger) (candidate : SignalCandidate) : Prop :=
  ∀ existing ∈ memory.candidates.get? candidate.candidateId, existing = candidate

/-- The decision is about the candidate. -/
def Matches (candidate : SignalCandidate) (decision : Decision) : Prop :=
  decision.candidateId = some candidate.candidateId ∧ decision.cycleId = candidate.cycleId

instance (memory : InMemoryDecisionLedger) (decision : Decision) : Decidable (KnownDecision memory decision) :=
  inferInstanceAs (Decidable (∀ existing ∈ memory.decisions.get? decision.decisionId, existing = decision))

instance (memory : InMemoryDecisionLedger) (candidate : SignalCandidate) : Decidable (KnownCandidate memory candidate) :=
  inferInstanceAs (Decidable (∀ existing ∈ memory.candidates.get? candidate.candidateId, existing = candidate))

instance (candidate : SignalCandidate) (decision : Decision) : Decidable (Matches candidate decision) :=
  inferInstanceAs (Decidable (_ ∧ _))

/-- The call gives no id something else than it has: unless its decision is not about its candidate, which both
ledgers refuse. -/
def Consistent (memory : InMemoryDecisionLedger) : LedgerCall → Prop
  | .append decision => KnownDecision memory decision
  | .appendCandidate candidate decision =>
    Matches candidate decision → KnownCandidate memory candidate ∧ KnownDecision memory decision

instance (memory : InMemoryDecisionLedger) (call : LedgerCall) : Decidable (Consistent memory call) :=
  match call with
  | .append decision => inferInstanceAs (Decidable (KnownDecision memory decision))
  | .appendCandidate _ _ => inferInstanceAs (Decidable (_ → _ ∧ _))

/-- The tables of the durable ledger are made of what the ledger in memory holds. -/
structure Mirrored (memory : InMemoryDecisionLedger) (tables : ControlTables) : Prop where
  decisions : Filed Decision.decisionId Decision.withMap memory.decisions tables.decisionEvents
  candidates : Filed SignalCandidate.candidateId SignalCandidate.withMap memory.candidates tables.signalCandidates

theorem mirrored_new : Mirrored .new {} := ⟨filed_empty, filed_empty⟩

/-- Tables that mirror a ledger hold the same records. -/
theorem Mirrored.sameRecords {memory : InMemoryDecisionLedger} {tables : ControlTables}
    (h : Mirrored memory tables) : SameRecords memory tables := by
  refine ⟨fun cycleId d => ?_, fun c => ?_⟩
  · unfold InMemoryDecisionLedger.forCycle PostgresDecisionLedger.forCycle
    rw [(List.perm_insertionSort _ _).mem_iff, h.decisions.rows_eq, List.filter_map]
    rfl
  · rw [h.candidates.rows_eq]

/-! ### One call -/

section Step

variable {memory : InMemoryDecisionLedger} {tables : ControlTables} {candidate : SignalCandidate} {decision : Decision}

variable (memory) in
/-- The ledger in memory takes a decision that it does not have otherwise. -/
theorem append_of_known (h : KnownDecision memory decision) :
    InMemoryDecisionLedger.append decision memory =
      .ok () { memory with decisions := memory.decisions.set decision.decisionId decision } := by
  unfold InMemoryDecisionLedger.append
  cases hget : memory.decisions.get? decision.decisionId with
  | none => rfl
  | some existing =>
    dsimp only
    rw [if_neg (not_not.mpr (h existing hget))]

variable (memory) in
/-- It refuses one that it has otherwise. -/
theorem append_of_not_known (h : ¬ KnownDecision memory decision) :
    InMemoryDecisionLedger.append decision memory = .error (.valueError "decision identity is immutable") memory := by
  unfold KnownDecision at h
  push Not at h
  obtain ⟨existing, hget, hne⟩ := h
  unfold InMemoryDecisionLedger.append
  rw [Option.mem_def.mp hget]
  dsimp only
  rw [if_pos hne]

/-- A candidate and its decision, neither of which the ledger has otherwise. -/
theorem appendCandidate_of_known (hmatches : Matches candidate decision) (hcandidate : KnownCandidate memory candidate)
    (hdecision : KnownDecision memory decision) :
    InMemoryDecisionLedger.appendCandidate candidate decision memory =
      .ok () { decisions := memory.decisions.set decision.decisionId decision
               candidates := memory.candidates.set candidate.candidateId candidate } := by
  have hknown : ¬ ∃ existing ∈ memory.candidates.get? candidate.candidateId, existing ≠ candidate := by
    rintro ⟨existing, hget, hne⟩
    exact hne (hcandidate existing hget)
  have hof : ¬ (decision.candidateId ≠ some candidate.candidateId ∨ decision.cycleId ≠ candidate.cycleId) := by
    rw [not_or, not_not, not_not]
    exact hmatches
  unfold InMemoryDecisionLedger.appendCandidate
  rw [Effect.bind_apply, Effect.get_apply]
  dsimp only
  rw [if_neg hknown, if_neg hof, Effect.bind_apply, Effect.modify_apply]
  exact append_of_known { memory with candidates := _ } hdecision

variable (memory) in
/-- A candidate whose decision is not about it is refused, and nothing changes. -/
theorem appendCandidate_of_mismatch (h : ¬ Matches candidate decision) :
    ∃ e, InMemoryDecisionLedger.appendCandidate candidate decision memory = .error e memory := by
  have hof : decision.candidateId ≠ some candidate.candidateId ∨ decision.cycleId ≠ candidate.cycleId :=
    not_and_or.mp h
  unfold InMemoryDecisionLedger.appendCandidate
  rw [Effect.bind_apply, Effect.get_apply]
  dsimp only
  by_cases hknown : ∃ existing ∈ memory.candidates.get? candidate.candidateId, existing ≠ candidate
  · rw [if_pos hknown]
    exact ⟨_, rfl⟩
  · rw [if_neg hknown, if_pos hof]
    exact ⟨_, rfl⟩

/-- A candidate or a decision that the ledger has otherwise is refused. -/
theorem appendCandidate_of_not_known (h : ¬ (KnownCandidate memory candidate ∧ KnownDecision memory decision)) :
    ∃ e memory', InMemoryDecisionLedger.appendCandidate candidate decision memory = .error e memory' := by
  unfold InMemoryDecisionLedger.appendCandidate
  rw [Effect.bind_apply, Effect.get_apply]
  dsimp only
  by_cases hknown : ∃ existing ∈ memory.candidates.get? candidate.candidateId, existing ≠ candidate
  · rw [if_pos hknown]
    exact ⟨_, _, rfl⟩
  · have hcandidate : KnownCandidate memory candidate := by
      intro existing hget
      by_contra hne
      exact hknown ⟨existing, hget, hne⟩
    rw [if_neg hknown]
    split_ifs
    · exact ⟨_, _, rfl⟩
    · rw [Effect.bind_apply, Effect.modify_apply]
      refine ⟨_, _, append_of_not_known { memory with candidates := _ } ?_⟩
      exact fun hdecision => h ⟨hcandidate, hdecision⟩

/-- The durable ledger refuses a candidate just if its decision is not about it. -/
theorem durable_appendCandidate :
    PostgresDecisionLedger.appendCandidate candidate decision tables =
      if Matches candidate decision then
        .ok () (PostgresDecisionLedger.insertDecision decision (PostgresDecisionLedger.insertCandidate candidate tables))
      else .error (.valueError "signal decision does not match candidate identity") tables := by
  unfold PostgresDecisionLedger.appendCandidate
  by_cases h : Matches candidate decision
  · have hof : ¬ (decision.candidateId ≠ some candidate.candidateId ∨ decision.cycleId ≠ candidate.cycleId) := by
      rw [not_or, not_not, not_not]
      exact h
    rw [if_neg hof, if_pos h]
    rfl
  · rw [if_pos (not_and_or.mp h), if_neg h]
    rfl

/-- **A consistent call** keeps the tables a mirror of the memory, and either both ledgers take it or both refuse. -/
theorem Mirrored.step (h : Mirrored memory tables) {call : LedgerCall} (hcall : Consistent memory call) :
    Mirrored (inMemory.step memory call).1 (durable.step tables call).1 ∧
      (inMemory.step memory call).2 = (durable.step tables call).2 := by
  cases call with
  | append decision =>
    have hmemory : inMemory.step memory (.append decision) =
        ({ memory with decisions := memory.decisions.set decision.decisionId decision }, true) := by
      simp only [calls, LedgerCall.program, InMemoryDecisionLedger.ledger, append_of_known memory hcall]
    rw [hmemory]
    exact ⟨⟨h.decisions.insert (fun _ => rfl) hcall, h.candidates⟩, rfl⟩
  | appendCandidate candidate decision =>
    by_cases hmatches : Matches candidate decision
    · obtain ⟨hcandidate, hdecision⟩ := hcall hmatches
      have hmemory : inMemory.step memory (.appendCandidate candidate decision) =
          (⟨memory.decisions.set decision.decisionId decision,
            memory.candidates.set candidate.candidateId candidate⟩, true) := by
        simp only [calls, LedgerCall.program, InMemoryDecisionLedger.ledger,
          appendCandidate_of_known hmatches hcandidate hdecision]
      have hdurable : durable.step tables (.appendCandidate candidate decision) =
          (PostgresDecisionLedger.insertDecision decision (PostgresDecisionLedger.insertCandidate candidate tables),
            true) := by
        simp only [calls, LedgerCall.program, PostgresDecisionLedger.ledger, durable_appendCandidate, if_pos hmatches]
      rw [hmemory, hdurable]
      exact ⟨⟨h.decisions.insert (fun _ => rfl) hdecision, h.candidates.insert (fun _ => rfl) hcandidate⟩, rfl⟩
    · obtain ⟨e, he⟩ := appendCandidate_of_mismatch memory hmatches
      have hmemory : inMemory.step memory (.appendCandidate candidate decision) = (memory, false) := by
        simp only [calls, LedgerCall.program, InMemoryDecisionLedger.ledger, he]
      have hdurable : durable.step tables (.appendCandidate candidate decision) = (tables, false) := by
        simp only [calls, LedgerCall.program, PostgresDecisionLedger.ledger, durable_appendCandidate, if_neg hmatches]
      rw [hmemory, hdurable]
      exact ⟨h, rfl⟩

variable (tables) in
/-- A call that is not consistent is refused by the ledger in memory, and taken by the durable one. -/
theorem outputs_of_not_consistent {call : LedgerCall} (hcall : ¬ Consistent memory call) :
    (inMemory.step memory call).2 = false ∧ (durable.step tables call).2 = true := by
  cases call with
  | append decision =>
    refine ⟨?_, rfl⟩
    simp only [calls, LedgerCall.program, InMemoryDecisionLedger.ledger, append_of_not_known memory hcall]
  | appendCandidate candidate decision =>
    unfold Consistent at hcall
    rw [Classical.not_imp] at hcall
    obtain ⟨hmatches, hnot⟩ := hcall
    obtain ⟨e, memory', he⟩ := appendCandidate_of_not_known hnot
    constructor
    · simp only [calls, LedgerCall.program, InMemoryDecisionLedger.ledger, he]
    · simp only [calls, LedgerCall.program, PostgresDecisionLedger.ledger, durable_appendCandidate, if_pos hmatches]

end Step

/-! ### Runs -/

/-- In a run that gives the same outputs, every call was consistent. -/
theorem along_of_outputs {memory : InMemoryDecisionLedger} {tables : ControlTables} (h : Mirrored memory tables)
    {run : List LedgerCall} (houtputs : inMemory.outputs memory run = durable.outputs tables run) :
    inMemory.Along Consistent memory run := by
  induction run generalizing memory tables with
  | nil => trivial
  | cons call run ih =>
    obtain ⟨hfirst, hrest⟩ := List.cons.inj houtputs
    have hcall : Consistent memory call := by
      by_contra hnot
      obtain ⟨hmemory, hdurable⟩ := outputs_of_not_consistent tables hnot
      rw [hmemory, hdurable] at hfirst
      cases hfirst
    exact ⟨hcall, ih (h.step hcall).1 hrest⟩

/-- **The ledgers agree** on a run just if no call gives an id something else than the ledger in memory has under it:
then they raise on the same calls, and hold the same decisions in every cycle and the same candidates. -/
theorem ledgers_agree_iff (run : List LedgerCall) :
    (inMemory.outputs .new run = durable.outputs {} run ∧
      SameRecords (inMemory.exec .new run) (durable.exec {} run)) ↔ inMemory.Along Consistent .new run := by
  constructor
  · rintro ⟨houtputs, -⟩
    exact along_of_outputs mirrored_new houtputs
  · intro hconsistent
    obtain ⟨hmirrored, houtputs⟩ := Machine.simulation_along id
      (fun memory tables call (h : Mirrored memory tables) hcall => h.step hcall) mirrored_new hconsistent
    rw [List.map_id] at hmirrored houtputs
    exact ⟨houtputs, hmirrored.sameRecords⟩

/-! ### The same decision again -/

namespace Sample

/-- A rejection of an exit, some seconds after the epoch. -/
def rejection (after : ℤ) : Decision :=
  ⟨"decision-1", "cycle-1", .nse, "RELIANCE", some "1m", .positionManagement, .rejected, "EXIT_RISK_REJECTED",
    seconds after, some "candidate-1", some "strategy-1", "", []⟩

end Sample

/-- The rejection of an exit is written again a minute later, under the id it had: the ledger in memory refuses it,
and the durable one does not. -/
theorem decision_at_another_time :
    inMemory.outputs .new [.append (Sample.rejection 0), .append (Sample.rejection 60)] = [true, false] ∧
      durable.outputs {} [.append (Sample.rejection 0), .append (Sample.rejection 60)] = [true, true] := by
  decide

end NanoDelta.Decisions
