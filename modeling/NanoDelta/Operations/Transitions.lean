import NanoDelta.Operations.Postgres

/-!
# Transitions of the workers' states

A command reads the state of a worker with one query and writes it with a later transaction, and a worker publishes a
snapshot that it took before. What the replicas and the workers write in between is replaced.

* `step_updates`, `step_workerState`: what a step writes.
* `Sound`: what is asked of a step. `Current`: what a writer finds when it writes.
* `sound_iff`: the steps of a run are sound just if every writer finds what it has seen, and no other result under its key.
* `stale_repair`: a REPAIR that sets a worker back.
-/

namespace NanoDelta.Operations

open Library NanoDelta.Runtime

/-! ### What a step writes -/

/-- The database accepts the record: its key has one, or its id has none. -/
def Control.Admits (db : Control) (record : AuditRecord) : Prop :=
  (∃ row ∈ db.operationalAudit, row.idempotencyKey = record.idempotencyKey) ∨
    ∀ row ∈ db.operationalAudit, row.auditId ≠ record.auditId

instance (db : Control) (record : AuditRecord) : Decidable (db.Admits record) := instDecidableOr

theorem Control.admits_iff {db : Control} {record : AuditRecord} :
    db.Admits record ↔ ∃ db', db.commitTransition record = .ok db' := by
  constructor
  · intro h
    unfold commitTransition Table.insertOrSkip
    rw [if_neg (not_not.mpr trivial)]
    split_ifs with htaken hfree
    · exact ⟨_, rfl⟩
    · exact ⟨_, rfl⟩
    · exact absurd h (not_or.mpr ⟨htaken, hfree⟩)
  · rintro ⟨db', h⟩
    obtain ⟨operationalAudit, hinsert, -⟩ := Effect.except_bind_eq_ok.mp h
    rcases (Table.insertOrSkip_eq_ok.mp hinsert).2 with ⟨htaken, -⟩ | ⟨-, hfree, -⟩
    · exact Or.inl htaken
    · exact Or.inr hfree

/-- The record of the transition that a step commits. -/
def Replicas.commits (s : Replicas) : Input → Option AuditRecord
  | .advance i none =>
    match s.underway i with
    | some (.commit controller record) =>
      if controller.queues record.command = false ∧ s.db.Admits record then some record else none
    | _ => none
  | _ => none

/-- The state that a step writes. -/
def Replicas.update (s : Replicas) (input : Input) : Option Update :=
  match s.commits input with
  | some record => some ⟨record.market, record.previousState, record.resultingState⟩
  | none =>
    match input with
    | .advance i none =>
      match s.underway i with
      | some (.save snapshot seen) => (s.db.published snapshot).map fun state => ⟨snapshot.market, seen, state⟩
      | _ => none
    | _ => none

/-- What a step does to the stored states and the updates, by the record that it commits and the state that it writes. -/
inductive Writes (s s' : Replicas) : Option AuditRecord → Option Update → Prop where
  | nothing (hdb : s'.db.workerState = s.db.workerState) (hupdates : s'.updates = s.updates) : Writes s s' none none
  | transition {record : AuditRecord} (hdb : s.db.commitTransition record = .ok s'.db)
    (hupdates : s'.updates = s.updates ++ [⟨record.market, record.previousState, record.resultingState⟩]) :
    Writes s s' (some record) (some ⟨record.market, record.previousState, record.resultingState⟩)
  | publication {snapshot : WorkerSnapshot} {seen state : WorkerState} (hstate : s.db.published snapshot = some state)
    (hdb : s'.db = s.db.save snapshot) (hupdates : s'.updates = s.updates ++ [⟨snapshot.market, seen, state⟩]) :
    Writes s s' none (some ⟨snapshot.market, seen, state⟩)

section Steps

variable (host : Host) (s : Replicas)

/-- **The steps**: what each writes. -/
theorem step_writes (input : Input) :
    Writes s ((replicas host).step s input).1 (s.commits input) (s.update input) := by
  cases input with
  | call i controller request =>
    simp only [replicas, Replicas.commits, Replicas.update]
    split <;> exact .nothing rfl rfl
  | publish i snapshot =>
    simp only [replicas, Replicas.commits, Replicas.update]
    split <;> exact .nothing rfl rfl
  | advance i failure =>
    cases hstage : s.underway i with
    | none =>
      cases failure <;> simp only [replicas, Replicas.commits, Replicas.update, hstage] <;> exact .nothing rfl rfl
    | some stage =>
      cases stage with
      | readAudit controller request =>
        cases failure <;> simp only [replicas, Replicas.commits, Replicas.update, hstage, Stage.transaction] <;>
          split <;> exact .nothing rfl rfl
      | readState controller request =>
        cases failure <;> simp only [replicas, Replicas.commits, Replicas.update, hstage, Stage.transaction] <;>
          split <;> exact .nothing rfl rfl
      | commit controller record =>
        cases failure with
        | some e =>
          simp only [replicas, Replicas.commits, Replicas.update, hstage, Stage.transaction]
          split
          · rename_i result kept htransaction
            exact .nothing rfl rfl
          · split <;> exact .nothing rfl rfl
        | none =>
          simp only [replicas, Replicas.commits, Replicas.update, hstage, Stage.transaction]
          cases hqueues : controller.queues record.command with
          | true =>
            cases hqueue : s.db.commitQueuedCommand record with
            | error e => exact .nothing rfl rfl
            | ok db' => exact .nothing (Control.workerState_commitQueuedCommand _ hqueue) (List.append_nil _)
          | false =>
            cases hcommit : s.db.commitTransition record with
            | error e =>
              have hnot : ¬ s.db.Admits record := by
                rw [Control.admits_iff, hcommit]
                rintro ⟨db', h⟩
                cases h
              simp only [hnot, and_false, if_false]
              exact .nothing rfl rfl
            | ok db' =>
              simp only [Control.admits_iff.mpr ⟨db', hcommit⟩, and_self, if_true]
              exact .transition hcommit rfl
      | save snapshot seen =>
        cases failure with
        | some e =>
          simp only [replicas, Replicas.commits, Replicas.update, hstage, Stage.transaction]
          exact .nothing rfl rfl
        | none =>
          simp only [replicas, Replicas.commits, Replicas.update, hstage, Stage.transaction]
          cases hstate : s.db.published snapshot with
          | none =>
            refine .nothing ?_ (List.append_nil _)
            funext market
            exact (Control.workerState_save ..).trans (by simp [hstate])
          | some state => exact .publication hstate rfl rfl

/-! ### The claim, and when it holds -/

/-- The states that the updates leave, from those at the start. -/
def standing (start : Control) (updates : List Update) : Market → WorkerState :=
  updates.foldl (fun states update => Function.update states update.market update.written) start.workerState

variable (start : Control) (input : Input)

/-- What is asked of a step. -/
structure Sound : Prop where
  /-- A REPAIR leaves the stored states as they are. -/
  repair : ∀ record ∈ s.commits input, record.command = .repair →
    ((replicas host).step s input).1.db.workerState = s.db.workerState
  /-- After another transition the stored state is the result of the record that is kept for its key. -/
  recorded : ∀ record ∈ s.commits input, record.command ≠ .repair →
    ∃ kept ∈ ((replicas host).step s input).1.db.auditRecord record.idempotencyKey,
      ((replicas host).step s input).1.db.workerState record.market = kept.resultingState
  /-- No update replaces the state that another left by one whose writer had not seen it. -/
  seen : ∀ update, ((replicas host).step s input).1.updates = s.updates ++ [update] →
    standing start s.updates update.market = update.seen ∨ standing start s.updates update.market = update.written

/-- A writer finds the state that it has seen, or the one that it writes, and no other result under its key. -/
structure Current : Prop where
  seen : ∀ update ∈ s.update input,
    s.db.workerState update.market = update.seen ∨ s.db.workerState update.market = update.written
  kept : ∀ record ∈ s.commits input, record.command ≠ .repair →
    ∀ kept ∈ s.db.auditRecord record.idempotencyKey, kept.resultingState = record.resultingState

/-- What holds in every run: the updates lead to the stored states, and a REPAIR is about to write what it read. -/
structure Kept : Prop where
  standing : standing start s.updates = s.db.workerState
  repairs : ∀ i controller record, s.underway i = some (.commit controller record) → record.command = .repair →
    record.resultingState = record.previousState

end Steps

section Claim

variable {host : Host} {start : Control} {s s' : Replicas} {input : Input}

/-- The updates lead to the stored states also after a step. -/
theorem Writes.standing {record : Option AuditRecord} {update : Option Update} (h : Writes s s' record update)
    (hs : standing start s.updates = s.db.workerState) : Operations.standing start s'.updates = s'.db.workerState := by
  have hadd : ∀ update : Update, Operations.standing start (s.updates ++ [update]) =
      Function.update (Operations.standing start s.updates) update.market update.written := by
    intro update
    simp [Operations.standing]
  cases h with
  | nothing hdb hupdates => rw [hupdates, hdb, hs]
  | transition hdb hupdates =>
    rw [hupdates, hadd, hs]
    funext market
    rw [Control.workerState_commitTransition _ hdb, Function.update_apply]
  | publication hstate hdb hupdates =>
    rw [hupdates, hadd, hs, hdb]
    funext market
    rw [Control.workerState_save, Function.update_apply, hstate, Option.getD_some]

/-- A record that is about to be written was made from what was read. -/
theorem repair_of_query {stage : Stage} {failure : Option PyError} {controller : RuntimeController} {record : AuditRecord}
    (h : stage.query host s.db failure = .ok (.inl (.commit controller record))) (hrepair : record.command = .repair)
    (hstage : stage.transaction s.db = none) : record.resultingState = record.previousState := by
  cases stage with
  | readAudit other request =>
    cases failure with
    | some e => cases h
    | none =>
      obtain ⟨existing, -, h⟩ := Effect.except_bind_eq_ok.mp h
      cases existing <;> cases h
  | readState other request =>
    obtain ⟨decided, hdecide, h⟩ := Effect.except_bind_eq_ok.mp h
    cases h
    obtain ⟨-, -, hcommand, hprevious, hresulting⟩ := of_decide hdecide
    rw [hresulting, hprevious]
    rw [hcommand] at hrepair
    simp [RuntimeController.queues, Command.resulting, hrepair]
  | commit other other' =>
    unfold Stage.transaction at hstage
    dsimp only at hstage
    split_ifs at hstage
  | save snapshot seen => cases hstage

/-- What is under way comes from the step that brought it to its stage. -/
theorem repairs_of_goto {i : ℕ} {stage : Option Stage} (h : Kept s start) (hunderway : s'.underway = Function.update s.underway i stage)
    (hstage : ∀ controller record, stage = some (.commit controller record) → record.command = .repair →
      record.resultingState = record.previousState) :
    ∀ j controller record, s'.underway j = some (.commit controller record) → record.command = .repair →
      record.resultingState = record.previousState := by
  intro j controller record hj hrepair
  rw [hunderway, Function.update_apply] at hj
  split_ifs at hj
  · exact hstage controller record hj hrepair
  · exact h.repairs j controller record hj hrepair

variable (host) in
/-- **Every step** keeps it. -/
theorem Kept.step (h : Kept s start) (input : Input) : Kept ((replicas host).step s input).1 start := by
  refine ⟨(step_writes host s input).standing h.standing, ?_⟩
  have hends : ∀ controller record, (none : Option Stage) = some (.commit controller record) → record.command = .repair →
      record.resultingState = record.previousState := fun _ _ he => nomatch he
  cases input with
  | call i controller request =>
    simp only [replicas]
    split
    · exact h.repairs
    · exact repairs_of_goto h rfl fun _ _ he => nomatch he
    · exact h.repairs
  | publish i snapshot =>
    simp only [replicas]
    split
    · exact h.repairs
    · exact repairs_of_goto h rfl fun _ _ he => nomatch he
  | advance i failure =>
    simp only [replicas]
    split
    · exact h.repairs
    · rename_i stage hstage
      split
      · split <;> exact repairs_of_goto h rfl hends
      · rename_i htransaction
        split
        · rename_i stage' hquery
          apply repairs_of_goto h rfl
          rintro controller record he hrepair
          cases he
          exact repair_of_query hquery hrepair htransaction
        · exact repairs_of_goto h rfl hends
        · exact repairs_of_goto h rfl hends

/-- A REPAIR that is committed writes what it read. -/
theorem Kept.repair (h : Kept s start) {record : AuditRecord} (hrecord : record ∈ s.commits input)
    (hrepair : record.command = .repair) : record.resultingState = record.previousState := by
  unfold Replicas.commits at hrecord
  split at hrecord
  · split at hrecord
    · rename_i controller committed hstage
      split_ifs at hrecord
      · cases hrecord
        exact h.repairs _ controller record hstage hrepair
      · cases hrecord
    · cases hrecord
  · cases hrecord

/-- **A step is sound just if its writer finds what it has seen.** -/
theorem sound_step_iff (h : Kept s start) : Sound host s start input ↔ Current s input := by
  have hwrites := step_writes host s input
  have hrepair : ∀ record ∈ s.commits input, record.command = .repair → record.resultingState = record.previousState :=
    fun record hrecord => h.repair hrecord
  constructor
  · intro hsound
    refine ⟨?_, ?_⟩
    · intro update hupdate
      rw [← h.standing]
      apply hsound.seen
      rw [hupdate] at hwrites
      generalize s.commits input = commits at hwrites
      cases hwrites with
      | transition hdb hupdates => exact hupdates
      | publication hstate hdb hupdates => exact hupdates
    · intro record hrecord hcommand kept hkept
      obtain ⟨kept', hkept', hstate⟩ := hsound.recorded record hrecord hcommand
      rw [hrecord] at hwrites
      generalize s.update input = update at hwrites
      cases hwrites with
      | transition hdb hupdates =>
        rw [Control.auditRecord_commitTransition _ hdb, hkept] at hkept'
        cases hkept'
        rw [Control.workerState_commitTransition _ hdb, if_pos rfl] at hstate
        exact hstate.symm
  · intro hcurrent
    refine ⟨?_, ?_, ?_⟩
    · intro record hrecord hcommand
      have hsame := hrepair record hrecord hcommand
      have hseen := hcurrent.seen
      rw [hrecord] at hwrites
      generalize s.update input = update at hwrites hseen
      cases hwrites with
      | transition hdb hupdates =>
        have hfound : s.db.workerState record.market = record.resultingState := by
          rcases hseen _ rfl with hseen | hwritten
          · exact hseen.trans hsame.symm
          · exact hwritten
        funext market
        rw [Control.workerState_commitTransition _ hdb]
        split_ifs with hmarket
        · rw [hmarket, hfound]
        · rfl
    · intro record hrecord hcommand
      have hkept := hcurrent.kept record hrecord hcommand
      rw [hrecord] at hwrites
      generalize s.update input = update at hwrites
      cases hwrites with
      | transition hdb hupdates =>
        refine ⟨_, Control.auditRecord_commitTransition _ hdb, ?_⟩
        rw [Control.workerState_commitTransition _ hdb, if_pos rfl]
        cases hrow : s.db.auditRecord record.idempotencyKey with
        | none => rfl
        | some row => exact (hkept row hrow).symm
    · intro update hupdates
      rw [h.standing]
      apply hcurrent.seen
      generalize s.commits input = commits at hwrites
      generalize s.update input = written at hwrites
      cases hwrites with
      | nothing hdb hsame => simp [hsame] at hupdates
      | transition hdb hadd =>
        rw [hadd] at hupdates
        simpa using hupdates
      | publication hstate hdb hadd =>
        rw [hadd] at hupdates
        simpa using hupdates

variable (host) in
/-- **The transitions of a run are sound** just if every writer finds the state that it has seen, or the one it writes, and
no other result under its key. -/
theorem sound_iff (start : Control) (inputs : List Input) :
    (replicas host).Along (fun s => Sound host s start) { db := start } inputs ↔
      (replicas host).Along Current { db := start } inputs :=
  Machine.along_congr (P := fun s => Kept s start) (fun _ input h => h.step host input) (fun _ _ h => sound_step_iff h)
    ⟨rfl, fun _ _ _ he => by cases he⟩ inputs

end Claim

/-! ### A run -/

/-- A database whose worker for NSE runs. -/
def running : Control := { runtimeWorkers := Dict.empty.set .nse ⟨.running, none⟩ }

/-- A REPAIR of the API, whose commands are durable. -/
def repairNse : Request := ⟨.nse, .repair, ⟨"operator-1", "operator"⟩, "repair-1", true, .aware 0, ""⟩

/-- The REPAIR reads the state; then the worker publishes that it has stopped. -/
def stoppedMeanwhile : List Input :=
  [.call 0 ⟨[], true⟩ repairNse, .advance 0 none, .advance 0 none,
    .publish 1 ⟨.nse, "i1", .stopped, seconds 60, none, none, none⟩, .advance 1 none]

/-- **A REPAIR that sets a worker back**: it writes the state that it had read before the worker stopped. -/
theorem stale_repair :
    let s := (replicas Host.cpython).exec { db := running } stoppedMeanwhile
    ∃ record, ((replicas Host.cpython).step s (.advance 0 none)).2 = some (.ok (some record)) ∧ record.command = .repair ∧
      s.db.workerState .nse = .stopped ∧
      ((replicas Host.cpython).step s (.advance 0 none)).1.db.workerState .nse = .running :=
  ⟨_, rfl, rfl, rfl, rfl⟩

end NanoDelta.Operations
