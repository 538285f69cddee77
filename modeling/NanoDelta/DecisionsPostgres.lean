import NanoDelta.Decisions
import NanoDelta.Library.Table

/-!
# Stage decisions in PostgreSQL

`decisions_postgres.py`: the durable decision ledger. A decision or a candidate whose
id is there already is not written again, whatever it says. A JSON object of numbers
comes back with its names in order.

Every row that the ledger writes meets the checks of its table, because the records do,
so a statement fails only if the connection does.
-/

namespace NanoDelta.Decisions

open Library

/-- The tables of the schema `control` that the ledger writes. -/
structure ControlTables where
  signalCandidates : List SignalCandidate := []
  decisionEvents : List Decision := []

namespace PostgresDecisionLedger

/-- `json.dumps(dict(pairs), sort_keys=True)`, as it is read back. -/
def jsonObject (pairs : List (String × ℚ)) : List (String × ℚ) :=
  (pairs.foldl (fun d p => d.set p.1 p.2) (Dict.empty : Dict String ℚ)).entries.insertionSort fun a b => a.1 ≤ b.1

/-- `INSERT INTO control.decision_events … ON CONFLICT (decision_id) DO NOTHING`. -/
def insertDecision (decision : Decision) (tables : ControlTables) : ControlTables :=
  { tables with
    decisionEvents := Table.insertNew (fun d => d.decisionId = decision.decisionId)
      { decision with metrics := jsonObject decision.metrics } tables.decisionEvents }

/-- `INSERT INTO control.signal_candidates … ON CONFLICT (candidate_id) DO NOTHING`. -/
def insertCandidate (candidate : SignalCandidate) (tables : ControlTables) : ControlTables :=
  { tables with
    signalCandidates := Table.insertNew (fun c => c.candidateId = candidate.candidateId)
      { candidate with evidence := jsonObject candidate.evidence } tables.signalCandidates }

/-- `PostgresDecisionLedger.append`. -/
def append (decision : Decision) : EStateM PyError ControlTables Unit := modify (insertDecision decision)

/-- `PostgresDecisionLedger.append_candidate`. -/
def appendCandidate (candidate : SignalCandidate) (decision : Decision) : EStateM PyError ControlTables Unit :=
  if decision.candidateId ≠ some candidate.candidateId ∨ decision.cycleId ≠ candidate.cycleId then
    throw (.valueError "signal decision does not match candidate identity")
  else modify fun tables => insertDecision decision (insertCandidate candidate tables)

/-- The durable ledger, behind the interface. -/
def ledger : DecisionLedger ControlTables := ⟨appendCandidate, append⟩

end PostgresDecisionLedger

end NanoDelta.Decisions
