import NanoDelta.Library.Locks
import NanoDelta.Operations.Postgres
import NanoDelta.Runtime.Supervisor

/-!
# The queue of commands

`runtime/control.py`: processes that claim queued commands, carry them out on their workers and complete them. Each process
has the workers of all markets and processes one command after another; an exception that leaves `process_one` ends it.

* `runtime`: the processes over one queue as a machine. A claim is two steps, with the row locked in between.
* `Stepped`: what a step does. `Kept`: what holds in every run; in it, that a command is executed once.
-/

namespace NanoDelta.Runtime.Commands

open Library Operations MarketWorker

/-! ### Processes -/

/-- `RuntimeCommand`. -/
structure RuntimeCommand where
  commandId : String
  market : Market
  command : Command
  requestedAt : Instant
  deriving DecidableEq, Repr

/-- Where a process stands in `process_one`. -/
inductive Phase where
  | idle
  /-- The row of a command is selected for update. -/
  | locked (commandId : String)
  /-- The claim is committed. -/
  | executing (command : RuntimeCommand)
  /-- The transition timed out, and the worker is to be cancelled. -/
  | cancelling (command : RuntimeCommand) (e : PyError)
  /-- The transition is over. -/
  | completing (command : RuntimeCommand) (error : Option String)
  /-- An exception has left `process_one`. -/
  | ended (raised : Raised)
  deriving DecidableEq, Repr

/-- The command that a process has claimed. -/
def Phase.claimed : Phase → Option RuntimeCommand
  | .executing command => some command
  | .cancelling command _ => some command
  | .completing command _ => some command
  | _ => none

/-- The row that a process has selected or claimed. -/
def Phase.row : Phase → Option String
  | .locked commandId => some commandId
  | phase => phase.claimed.map RuntimeCommand.commandId

/-- A process: the tasks of its workers, and where it stands. -/
structure Process where
  instanceId : String
  tasks : Market → Option Task := fun _ => none
  phase : Phase := .idle

/-- The database, the locks of rows, the processes, and the commands whose execution has begun, in order. -/
structure Processes where
  db : Operations.Control := {}
  locks : Locks String ℕ := Locks.free
  processes : ℕ → Process
  executed : List String := []

/-- What can happen. -/
inductive RuntimeInput where
  /-- A controller queues a command. -/
  | enqueue (record : AuditRecord)
  /-- The first query of a claim: a row that may be selected, if there are several. -/
  | lock (i : ℕ) (commandId : String)
  /-- The update of a claim, and its commit. -/
  | claim (i : ℕ) (now : Instant)
  /-- The transition of the worker. -/
  | transition (i : ℕ) (awaits : Awaits)
  /-- `worker.cancel()` after a timeout. -/
  | cancel (i : ℕ) (cleanup close : Option PyError)
  | complete (i : ℕ) (now : Instant)
  /-- A running task ends while nothing awaits it. -/
  | taskEnds (i : ℕ) (market : Market) (result : Except PyError PUnit)
  /-- A call of the database by the mailbox raises. -/
  | fail (i : ℕ) (e : PyError)

/-- The rows that `SELECT … WHERE state='PENDING' ORDER BY requested_at FOR UPDATE SKIP LOCKED LIMIT 1` may select. -/
def claimable (queue : List QueueRow) (locks : Locks String ℕ) : List QueueRow :=
  let rows := queue.filter fun row => row.state = .pending ∧ locks row.commandId = none
  rows.filter fun row => ∀ other ∈ rows, row.requestedAt ≤ other.requestedAt

/-- The queue with the row of a command changed. -/
def updateRow (queue : List QueueRow) (commandId : String) (f : QueueRow → QueueRow) : List QueueRow :=
  queue.map fun row => if row.commandId = commandId then f row else row

/-- The claim of a row. -/
def claimedRow (instanceId : String) (now : Instant) (row : QueueRow) : QueueRow :=
  { row with state := .running, attempts := row.attempts + 1, claimedAt := some now, instanceId := some instanceId }

/-- The end of a row, if the process that ends it has claimed it. -/
def completedRow (instanceId : String) (now : Instant) (error : Option String) (row : QueueRow) : QueueRow :=
  if row.instanceId = some instanceId then
    { row with state := if error.isSome then .failed else .succeeded, completedAt := some now, lastError := error }
  else row

/-- The command of a row. -/
def commandOf (row : QueueRow) : RuntimeCommand := ⟨row.commandId, row.market, row.command, row.requestedAt⟩

/-- `f"{type(exc).__name__}: {exc}"`. -/
def errorText (e : PyError) : String := e.typeName ++ ": " ++ e.text

/-- The transition of a command on its worker. -/
def execute (command : Command) (awaits : Awaits) (task : Option Task) : Option Task × Except Raised PUnit :=
  match command with
  | .start => start awaits task
  | .stop => stop awaits task
  | .drain => drain awaits task
  | .repair => (task, .error (.exception (.runtimeError "unsupported runtime command: repair")))

/-- Where a process stands after a transition: an exception is caught, and a `TimeoutError` cancels the worker. -/
def afterTransition (command : RuntimeCommand) : Except Raised PUnit → Phase
  | .ok () => .completing command none
  | .error (.exception (.timeoutError message)) => .cancelling command (.timeoutError message)
  | .error (.exception e) => .completing command (some (errorText e))
  | .error .cancelledError => .ended .cancelledError

/-- A process comes to a phase. -/
def Processes.goto (s : Processes) (i : ℕ) (phase : Phase) : Processes :=
  { s with processes := Function.update s.processes i { s.processes i with phase } }

/-- A process comes to a phase, and the task of a worker is another. -/
def Processes.work (s : Processes) (i : ℕ) (market : Market) (task : Option Task) (phase : Phase) : Processes :=
  { s with
    processes := Function.update s.processes i
      { s.processes i with tasks := Function.update (s.processes i).tasks market task, phase } }

section Goto

variable (s : Processes) (i j : ℕ) (phase : Phase) (market : Market) (task : Option Task)

@[simp] theorem phase_goto : ((s.goto i phase).processes j).phase = if j = i then phase else (s.processes j).phase := by
  simp only [Processes.goto, Function.update_apply]
  split_ifs <;> rfl

@[simp] theorem instanceId_goto : ((s.goto i phase).processes j).instanceId = (s.processes j).instanceId := by
  simp only [Processes.goto, Function.update_apply]
  split_ifs with h
  · rw [h]
  · rfl

@[simp] theorem phase_work :
    ((s.work i market task phase).processes j).phase = if j = i then phase else (s.processes j).phase := by
  simp only [Processes.work, Function.update_apply]
  split_ifs <;> rfl

@[simp] theorem instanceId_work : ((s.work i market task phase).processes j).instanceId = (s.processes j).instanceId := by
  simp only [Processes.work, Function.update_apply]
  split_ifs with h
  · rw [h]
  · rfl

end Goto

/-- The processes over one queue. An output is what `process_one` returns or raises. -/
def runtime : Machine Processes RuntimeInput (Option (Except Raised Bool)) where
  step s
    | .enqueue record =>
      match s.db.commitQueuedCommand record with
      | .ok db => ({ s with db }, none)
      | .error _ => (s, none)
    | .lock i commandId =>
      match (s.processes i).phase, claimable s.db.runtimeCommandQueue s.locks with
      | .idle, [] => (s, some (.ok false))
      | .idle, rows =>
        if ∃ row ∈ rows, row.commandId = commandId then
          ({ s with locks := s.locks.take [commandId] i }.goto i (.locked commandId), none)
        else (s, none)
      | _, _ => (s, none)
    | .claim i now =>
      match (s.processes i).phase with
      | .locked commandId =>
        match s.db.runtimeCommandQueue.find? fun row => row.commandId = commandId with
        | some row =>
          ({ s with
              db := { s.db with
                runtimeCommandQueue := updateRow s.db.runtimeCommandQueue commandId
                  (claimedRow (s.processes i).instanceId now) }
              locks := s.locks.release i
              executed := s.executed ++ [commandId] }.goto i
            (.executing (commandOf row)), none)
        | none => (s, none)
      | _ => (s, none)
    | .transition i awaits =>
      match (s.processes i).phase with
      | .executing command =>
        let (task, result) := execute command.command awaits ((s.processes i).tasks command.market)
        (s.work i command.market task (afterTransition command result),
          if result = .error .cancelledError then some (.error .cancelledError) else none)
      | _ => (s, none)
    | .cancel i cleanup close =>
      match (s.processes i).phase with
      | .cancelling command e =>
        match cancel ((s.processes i).tasks command.market) cleanup close with
        | (task, none) => (s.work i command.market task (.completing command (some (errorText e))), none)
        | (task, some e') =>
          (s.work i command.market task (.ended (.exception e')), some (.error (.exception e')))
      | _ => (s, none)
    | .complete i now =>
      match (s.processes i).phase with
      | .completing command error =>
        ({ s with
            db := { s.db with
              runtimeCommandQueue := updateRow s.db.runtimeCommandQueue command.commandId
                (completedRow (s.processes i).instanceId now error) } }.goto i .idle, some (.ok true))
      | _ => (s, none)
    | .taskEnds i market result =>
      match (s.processes i).tasks market with
      | some .running => (s.work i market (some (.done result)) (s.processes i).phase, none)
      | _ => (s, none)
    | .fail i e =>
      match (s.processes i).phase with
      | .idle => (s.goto i (.ended (.exception e)), some (.error (.exception e)))
      | .locked _ =>
        ({ s with locks := s.locks.release i }.goto i (.ended (.exception e)), some (.error (.exception e)))
      | .completing _ _ => (s.goto i (.ended (.exception e)), some (.error (.exception e)))
      | _ => (s, none)

/-! ### What a step does -/

/-- The command whose transition is under way. -/
def Phase.executed : Phase → Option RuntimeCommand
  | .executing command => some command
  | _ => none

/-- The worker is to be cancelled. -/
def Phase.cancels : Phase → Bool
  | .cancelling .. => true
  | _ => false

/-- The task was cancelled. -/
def Task.wasCancelled : Task → Bool
  | .cancelled => true
  | _ => false

/-- No `STOP` is carried out on a worker whose task was cancelled, and no `aclose()` raises in a worker's `cancel()`. -/
def Survives (s : Processes) : RuntimeInput → Prop
  | .transition i _ => ∀ command ∈ (s.processes i).phase.executed, command.command = .stop →
      ((s.processes i).tasks command.market).any Task.wasCancelled = false
  | .cancel i _ close => (s.processes i).phase.cancels = true → close = none
  | _ => True

instance (s : Processes) : ∀ input : RuntimeInput, Decidable (Survives s input)
  | .transition _ _ => Option.decidableForallMem _
  | .cancel _ _ _ => inferInstanceAs (Decidable (_ → _))
  | .enqueue _ => isTrue trivial
  | .lock _ _ => isTrue trivial
  | .claim _ _ => isTrue trivial
  | .complete _ _ => isTrue trivial
  | .taskEnds _ _ _ => isTrue trivial
  | .fail _ _ => isTrue trivial

/-- What a step does, by its input. -/
inductive Stepped (s : Processes) : RuntimeInput → Processes → Prop where
  | same {input : RuntimeInput} : Stepped s input s
  | enqueue {record : AuditRecord} {db : Operations.Control} (hdb : s.db.commitQueuedCommand record = .ok db) :
    Stepped s (.enqueue record) { s with db }
  | lock {i : ℕ} {row : QueueRow} (hphase : (s.processes i).phase = .idle)
    (hrow : row ∈ claimable s.db.runtimeCommandQueue s.locks) :
    Stepped s (.lock i row.commandId) ({ s with locks := s.locks.take [row.commandId] i }.goto i (.locked row.commandId))
  | claim {i : ℕ} {row : QueueRow} {now : Instant} (hphase : (s.processes i).phase = .locked row.commandId)
    (hrow : row ∈ s.db.runtimeCommandQueue) :
    Stepped s (.claim i now)
      ({ s with
          db := { s.db with
            runtimeCommandQueue := updateRow s.db.runtimeCommandQueue row.commandId
              (claimedRow (s.processes i).instanceId now) }
          locks := s.locks.release i
          executed := s.executed ++ [row.commandId] }.goto i (.executing (commandOf row)))
  | work {input : RuntimeInput} {i : ℕ} {market : Market} {task : Option Task} {phase : Phase}
    (hphase : phase = (s.processes i).phase ∨ phase.row = (s.processes i).phase.row ∧
      phase.claimed = (s.processes i).phase.claimed ∧ phase.claimed.isSome ∨
        (∃ raised, phase = .ended raised) ∧ ¬ Survives s input)
    (hlocked : ∀ commandId, (s.processes i).phase = .locked commandId → phase = .locked commandId) :
    Stepped s input (s.work i market task phase)
  | complete {i : ℕ} {now : Instant} {command : RuntimeCommand} {error : Option String}
    (hphase : (s.processes i).phase = .completing command error) :
    Stepped s (.complete i now)
      ({ s with
          db := { s.db with
            runtimeCommandQueue := updateRow s.db.runtimeCommandQueue command.commandId
              (completedRow (s.processes i).instanceId now error) } }.goto i .idle)
  | fail {i : ℕ} {e : PyError} {locks : Locks String ℕ} (hlocks : locks = s.locks ∨ locks = s.locks.release i)
    (hphase : ∀ commandId, (s.processes i).phase = .locked commandId → locks = s.locks.release i) :
    Stepped s (.fail i e) ({ s with locks }.goto i (.ended (.exception e)))

/-- Only a `STOP` on a task that was cancelled raises `CancelledError`. -/
theorem execute_cancelledError {command : Command} {awaits : Awaits} {task : Option Task} :
    (execute command awaits task).2 = .error .cancelledError ↔
      command = .stop ∧ task.any Task.wasCancelled = true := by
  cases command with
  | start => simp [execute, start_ne_cancelledError]
  | drain => simp [execute, drain_ne_cancelledError]
  | repair => simp [execute]
  | stop =>
    simp only [execute, stop_cancelledError, true_and]
    cases task with
    | none => simp
    | some task => cases task <;> simp [Task.wasCancelled]

/-- After a transition the process has still claimed its command, unless it has ended. -/
theorem row_afterTransition (command : RuntimeCommand) (result : Except Raised PUnit) :
    (afterTransition command result).row = (Phase.executing command).row ∧
        (afterTransition command result).claimed = (Phase.executing command).claimed ∧
        (afterTransition command result).claimed.isSome ∨
      (∃ raised, afterTransition command result = .ended raised) ∧ result = .error .cancelledError := by
  unfold afterTransition
  split
  · exact Or.inl ⟨rfl, rfl, rfl⟩
  · exact Or.inl ⟨rfl, rfl, rfl⟩
  · exact Or.inl ⟨rfl, rfl, rfl⟩
  · exact Or.inr ⟨⟨_, rfl⟩, rfl⟩

/-- **The steps**. -/
theorem step_stepped (s : Processes) (input : RuntimeInput) : Stepped s input (runtime.step s input).1 := by
  cases input with
  | enqueue record =>
    simp only [runtime]
    split
    · rename_i db hdb
      exact .enqueue hdb
    · exact .same
  | lock i commandId =>
    simp only [runtime]
    split
    · exact .same
    · rename_i hphase _
      split_ifs with hrow
      · obtain ⟨row, hrow, rfl⟩ := hrow
        exact .lock hphase hrow
      · exact .same
    · exact .same
  | claim i now =>
    simp only [runtime]
    split
    · rename_i commandId hphase
      split
      · rename_i row hfind
        have hid : row.commandId = commandId := by simpa using List.find?_some hfind
        subst hid
        exact .claim hphase (List.mem_of_find?_eq_some hfind)
      · exact .same
    · exact .same
  | transition i awaits =>
    simp only [runtime]
    split
    · rename_i command hphase
      refine .work ?_ (by simp [hphase])
      rw [hphase]
      right
      rcases row_afterTransition command
        (execute command.command awaits ((s.processes i).tasks command.market)).2 with hsame | ⟨hended, hraised⟩
      · exact Or.inl hsame
      · refine Or.inr ⟨hended, ?_⟩
        obtain ⟨hstop, hcancelled⟩ := execute_cancelledError.mp hraised
        intro hsurvives
        have hrunning := hsurvives command (by rw [hphase]; rfl) hstop
        rw [hcancelled] at hrunning
        cases hrunning
    · exact .same
  | cancel i cleanup close =>
    simp only [runtime]
    split
    · rename_i command e hphase
      split
      · exact .work (Or.inr (Or.inl (by simp [hphase, Phase.row, Phase.claimed]))) (by simp [hphase])
      · rename_i e' hcancel
        refine .work (Or.inr (Or.inr ⟨⟨_, rfl⟩, ?_⟩)) (by simp [hphase])
        intro hsurvives
        rw [hsurvives (by rw [hphase]; rfl)] at hcancel
        unfold cancel at hcancel
        split at hcancel <;> cases hcancel
    · exact .same
  | complete i now =>
    simp only [runtime]
    split
    · rename_i command error hphase
      exact .complete hphase
    · exact .same
  | taskEnds i market result =>
    simp only [runtime]
    split
    · exact .work (Or.inl rfl) fun _ h => h
    · exact .same
  | fail i e =>
    simp only [runtime]
    split
    · rename_i hphase
      exact .fail (Or.inl rfl) (by simp [hphase])
    · exact .fail (Or.inr rfl) fun _ _ => rfl
    · rename_i hphase
      exact .fail (Or.inl rfl) (by simp [hphase])
    · exact .same

/-! ### Every run -/

section Rows

variable {queue : List QueueRow} {f : QueueRow → QueueRow} {row : QueueRow} {commandId : String}

theorem mem_updateRow_of_ne (h : row ∈ queue) (hne : row.commandId ≠ commandId) : row ∈ updateRow queue commandId f :=
  List.mem_map.mpr ⟨row, h, if_neg hne⟩

theorem mem_updateRow_self (h : row ∈ queue) : f row ∈ updateRow queue row.commandId f :=
  List.mem_map.mpr ⟨row, h, if_pos rfl⟩

/-- A row after an update is one of before, or the updated one. -/
theorem of_mem_updateRow (h : row ∈ updateRow queue commandId f) :
    row ∈ queue ∧ row.commandId ≠ commandId ∨ ∃ old ∈ queue, old.commandId = commandId ∧ row = f old := by
  obtain ⟨old, hold, rfl⟩ := List.mem_map.mp h
  by_cases hid : old.commandId = commandId
  · exact Or.inr ⟨old, hold, hid, if_pos hid⟩
  · simp only [hid, if_false]
    exact Or.inl ⟨hold, hid⟩

theorem ids_updateRow (hf : ∀ row, (f row).commandId = row.commandId) :
    (updateRow queue commandId f).map QueueRow.commandId = queue.map QueueRow.commandId := by
  unfold updateRow
  rw [List.map_map]
  apply List.map_congr_left
  intro row _
  simp only [Function.comp_apply]
  split_ifs
  · exact hf row
  · rfl

end Rows

theorem commandId_completedRow (instanceId : String) (now : Instant) (error : Option String) (row : QueueRow) :
    (completedRow instanceId now error row).commandId = row.commandId := by
  unfold completedRow
  split_ifs <;> rfl

/-- A row that is ended is not pending again, and is at an end if the process has claimed it. -/
theorem state_completedRow (instanceId : String) (now : Instant) (error : Option String) (row : QueueRow) :
    (row.state ≠ .pending → (completedRow instanceId now error row).state ≠ .pending) ∧
      (row.instanceId = some instanceId → (completedRow instanceId now error row).state = .failed ∨
        (completedRow instanceId now error row).state = .succeeded) := by
  unfold completedRow
  cases error <;> split_ifs with hclaimed <;> simp [hclaimed]

/-- What holds in every run: a selected row is locked and pending, a claimed one is running under its process alone, and a
command is executed once. -/
structure Kept (s : Processes) : Prop where
  ids : (s.db.runtimeCommandQueue.map QueueRow.commandId).Nodup
  locked : ∀ i commandId, (s.processes i).phase = .locked commandId → s.locks commandId = some i ∧
    ∃ row ∈ s.db.runtimeCommandQueue, row.commandId = commandId ∧ row.state = .pending
  claimed : ∀ i, ∀ command ∈ (s.processes i).phase.claimed, ∃ row ∈ s.db.runtimeCommandQueue,
    commandOf row = command ∧ row.state = .running ∧ row.instanceId = some (s.processes i).instanceId
  distinct : ∀ i j, ∀ command ∈ (s.processes i).phase.claimed, ∀ other ∈ (s.processes j).phase.claimed,
    command.commandId = other.commandId → i = j
  executed : ∀ commandId ∈ s.executed, ∃ row ∈ s.db.runtimeCommandQueue, row.commandId = commandId ∧ row.state ≠ .pending
  once : s.executed.Nodup

/-- Two rows of one command are one. -/
theorem Kept.row_eq {s : Processes} (h : Kept s) {a b : QueueRow} (ha : a ∈ s.db.runtimeCommandQueue)
    (hb : b ∈ s.db.runtimeCommandQueue) (he : a.commandId = b.commandId) : a = b :=
  Table.eq_of_key_eq h.ids ha hb he

/-- The rows that a queued command leaves. -/
theorem rows_of_commitQueuedCommand {db db' : Operations.Control} {record : AuditRecord} (h : db.commitQueuedCommand record = .ok db') :
    ∃ row : QueueRow, db'.runtimeCommandQueue = db.runtimeCommandQueue ++ [row] ∧ row.state = .pending ∧
      row.commandId = record.auditId ∧ row.market = record.market ∧ row.requestedAt = record.requestedAt ∧
      ∀ other ∈ db.runtimeCommandQueue, other.commandId ≠ row.commandId := by
  unfold Operations.Control.commitQueuedCommand at h
  split_ifs at h with haudit hqueue
  cases h
  refine ⟨_, rfl, rfl, rfl, rfl, rfl, ?_⟩
  intro other hother he
  exact hqueue (Or.inr ⟨other, hother, Or.inr he⟩)

/-- **Every step** keeps it. -/
theorem Kept.stepped {s s' : Processes} {input : RuntimeInput} (h : Kept s) (hstep : Stepped s input s') : Kept s' := by
  cases hstep with
  | same => exact h
  | enqueue hdb =>
    obtain ⟨row, hqueue, hpending, -, -, -, hnew⟩ := rows_of_commitQueuedCommand hdb
    have hmem : ∀ other ∈ s.db.runtimeCommandQueue, other ∈ s.db.runtimeCommandQueue ++ [row] :=
      fun other hother => List.mem_append_left _ hother
    refine ⟨?_, ?_, ?_, h.distinct, ?_, h.once⟩
    · simp only [hqueue]
      rw [List.map_append, List.nodup_append]
      refine ⟨h.ids, List.nodup_singleton _, ?_⟩
      rintro a ha b hb rfl
      obtain ⟨other, hother, hid⟩ := List.mem_map.mp ha
      exact hnew other hother (hid.trans (List.mem_singleton.mp hb))
    · intro i commandId hphase
      obtain ⟨hlock, other, hother, hrest⟩ := h.locked i commandId hphase
      simp only [hqueue]
      exact ⟨hlock, other, hmem other hother, hrest⟩
    · intro i command hclaimed
      obtain ⟨other, hother, hrest⟩ := h.claimed i command hclaimed
      simp only [hqueue]
      exact ⟨other, hmem other hother, hrest⟩
    · intro commandId hexecuted
      obtain ⟨other, hother, hrest⟩ := h.executed commandId hexecuted
      simp only [hqueue]
      exact ⟨other, hmem other hother, hrest⟩
  | lock hphase hrow =>
    rename_i i row
    have hqueued : row ∈ s.db.runtimeCommandQueue ∧ row.state = .pending ∧ s.locks row.commandId = none := by
      have hfree := (List.mem_filter.mp hrow).1
      simpa using hfree
    have havailable : s.locks.Available [row.commandId] i := by
      intro k hk q hq
      rw [List.mem_singleton.mp hk, hqueued.2.2] at hq
      cases hq
    refine ⟨h.ids, ?_, ?_, ?_, h.executed, h.once⟩
    · intro j commandId hj
      rw [phase_goto] at hj
      split_ifs at hj with hji
      · cases hj
        exact ⟨hji ▸ Locks.take_of_mem (List.mem_singleton_self _), row, hqueued.1, rfl, hqueued.2.1⟩
      · obtain ⟨hlock, hrest⟩ := h.locked j commandId hj
        exact ⟨Locks.take_of_held havailable hlock, hrest⟩
    · intro j command hj
      rw [phase_goto] at hj
      split_ifs at hj with hji
      · cases hj
      · rw [instanceId_goto]
        exact h.claimed j command hj
    · intro j k command hj other hk
      rw [phase_goto] at hj hk
      split_ifs at hj hk with hji hki
      · cases hj
      · cases hj
      · cases hk
      · exact h.distinct j k command hj other hk
  | claim hphase hrow =>
    rename_i i row now
    obtain ⟨hlock, pending, hpending, hid, hstate⟩ := h.locked i row.commandId hphase
    obtain rfl : pending = row := h.row_eq hpending hrow hid
    -- A row that another process has claimed is running, so it is not this one.
    have hother : ∀ other ∈ s.db.runtimeCommandQueue, other.state ≠ .pending → other.commandId ≠ pending.commandId := by
      intro other hmem hrunning he
      rw [h.row_eq hmem hrow he] at hrunning
      exact hrunning hstate
    refine ⟨?_, ?_, ?_, ?_, ?_, ?_⟩
    · simp only [Processes.goto]
      rw [ids_updateRow (f := claimedRow (s.processes i).instanceId now) fun _ => rfl]
      exact h.ids
    · intro j commandId hj
      rw [phase_goto] at hj
      split_ifs at hj with hji
      obtain ⟨hheld, other, hmem, hrest⟩ := h.locked j commandId hj
      refine ⟨(Locks.release_of_ne hji).mpr hheld, other, mem_updateRow_of_ne hmem ?_, hrest⟩
      rintro he
      rw [hrest.1.symm.trans he, hlock] at hheld
      exact hji (Option.some.inj hheld).symm
    · intro j command hj
      rw [phase_goto] at hj
      rw [instanceId_goto]
      split_ifs at hj with hji
      · cases hj
        exact ⟨_, mem_updateRow_self hrow, rfl, rfl, hji ▸ rfl⟩
      · obtain ⟨other, hmem, hcommand, hrunning, hinstance⟩ := h.claimed j command hj
        exact ⟨other, mem_updateRow_of_ne hmem (hother other hmem (by simp [hrunning])), hcommand, hrunning, hinstance⟩
    · intro j k command hj other hk he
      have hclaimed : ∀ l, ∀ command ∈ (s.processes l).phase.claimed, command.commandId ≠ pending.commandId := by
        intro l command hl
        obtain ⟨row, hmem, rfl, hrunning, -⟩ := h.claimed l command hl
        exact hother row hmem (by simp [hrunning])
      rw [phase_goto] at hj hk
      split_ifs at hj hk with hji hki hki
      · exact hji.trans hki.symm
      · cases hj
        exact absurd he.symm (hclaimed k other hk)
      · cases hk
        exact absurd he (hclaimed j command hj)
      · exact h.distinct j k command hj other hk he
    · intro commandId hexecuted
      rcases List.mem_append.mp hexecuted with hold | hnew
      · obtain ⟨other, hmem, hcommand, hdone⟩ := h.executed commandId hold
        exact ⟨other, mem_updateRow_of_ne hmem (hother other hmem hdone), hcommand, hdone⟩
      · rw [List.mem_singleton.mp hnew]
        exact ⟨_, mem_updateRow_self hrow, rfl, by simp [claimedRow]⟩
    · simp only [Processes.goto]
      rw [List.nodup_append]
      refine ⟨h.once, List.nodup_singleton _, ?_⟩
      rintro a ha b hb rfl
      obtain ⟨other, hmem, hcommand, hdone⟩ := h.executed a ha
      exact hother other hmem hdone (hcommand.trans (List.mem_singleton.mp hb))
  | work hphase hlocked =>
    rename_i i market task phase
    have hclaimed : ∀ command ∈ phase.claimed, command ∈ (s.processes i).phase.claimed := by
      intro command hcommand
      rcases hphase with hphase | ⟨-, hphase, -⟩ | ⟨⟨raised, rfl⟩, -⟩
      · rw [← hphase]
        exact hcommand
      · rw [← hphase]
        exact hcommand
      · cases hcommand
    refine ⟨h.ids, ?_, ?_, ?_, h.executed, h.once⟩
    · intro j commandId hj
      rw [phase_work] at hj
      split_ifs at hj with hji
      · subst hji
        rcases hphase with hphase | ⟨-, -, hsome⟩ | ⟨⟨raised, rfl⟩, -⟩
        · exact h.locked j commandId (hphase.symm.trans hj)
        · rw [hj] at hsome
          cases hsome
        · cases hj
      · exact h.locked j commandId hj
    · intro j command hj
      rw [phase_work] at hj
      rw [instanceId_work]
      split_ifs at hj with hji
      · subst hji
        exact h.claimed j command (hclaimed command hj)
      · exact h.claimed j command hj
    · intro j k command hj other hk he
      have hbefore : ∀ l, ∀ command ∈ ((s.work i market task phase).processes l).phase.claimed,
          command ∈ (s.processes l).phase.claimed := by
        intro l command hl
        rw [phase_work] at hl
        split_ifs at hl with hli
        · subst hli
          exact hclaimed command hl
        · exact hl
      exact h.distinct j k command (hbefore j command hj) other (hbefore k other hk) he
  | complete hphase =>
    rename_i i now command error
    have hclaimed : command ∈ (s.processes i).phase.claimed := by
      rw [hphase]
      rfl
    obtain ⟨row, hrow, rfl, hrunning, -⟩ := h.claimed i command hclaimed
    refine ⟨?_, ?_, ?_, ?_, ?_, h.once⟩
    · simp only [Processes.goto]
      rw [ids_updateRow (commandId_completedRow _ _ _)]
      exact h.ids
    · intro j commandId hj
      rw [phase_goto] at hj
      split_ifs at hj with hji
      obtain ⟨hlock, pending, hmem, hid, hpending⟩ := h.locked j commandId hj
      refine ⟨hlock, pending, mem_updateRow_of_ne hmem ?_, hid, hpending⟩
      intro he
      rw [h.row_eq hmem hrow he, hrunning] at hpending
      cases hpending
    · intro j other hj
      rw [phase_goto] at hj
      rw [instanceId_goto]
      split_ifs at hj with hji
      · cases hj
      · obtain ⟨otherRow, hmem, hcommand, hrest⟩ := h.claimed j other hj
        refine ⟨otherRow, mem_updateRow_of_ne hmem ?_, hcommand, hrest⟩
        intro he
        apply hji
        apply h.distinct j i other hj _ hclaimed
        rw [← hcommand]
        exact he
    · intro j k other hj another hk
      rw [phase_goto] at hj hk
      split_ifs at hj hk with hji hki
      · cases hj
      · cases hj
      · cases hk
      · exact h.distinct j k other hj another hk
    · intro commandId hexecuted
      obtain ⟨other, hmem, hid, hdone⟩ := h.executed commandId hexecuted
      by_cases he : other.commandId = row.commandId
      · rw [h.row_eq hmem hrow he] at hid hdone
        exact ⟨_, mem_updateRow_self hrow, (commandId_completedRow ..).trans hid, (state_completedRow ..).1 hdone⟩
      · exact ⟨other, mem_updateRow_of_ne hmem he, hid, hdone⟩
  | fail hlocks hphase =>
    rename_i i e locks
    refine ⟨h.ids, ?_, ?_, ?_, h.executed, h.once⟩
    · intro j commandId hj
      rw [phase_goto] at hj
      split_ifs at hj with hji
      obtain ⟨hheld, hrest⟩ := h.locked j commandId hj
      refine ⟨?_, hrest⟩
      rcases hlocks with rfl | rfl
      · exact hheld
      · exact (Locks.release_of_ne hji).mpr hheld
    · intro j command hj
      rw [phase_goto] at hj
      rw [instanceId_goto]
      split_ifs at hj with hji
      · cases hj
      · exact h.claimed j command hj
    · intro j k command hj other hk
      rw [phase_goto] at hj hk
      split_ifs at hj hk with hji hki
      · cases hj
      · cases hj
      · cases hk
      · exact h.distinct j k command hj other hk

/-- The processes at the start, with the names of their instances. -/
def atStart (names : ℕ → String) : Processes := { processes := fun i => { instanceId := names i } }

theorem kept_atStart (names : ℕ → String) : Kept (atStart names) :=
  ⟨List.nodup_nil, fun _ _ h => (nomatch h), fun _ _ h => (nomatch h), fun _ _ _ h => (nomatch h),
    fun _ h => (nomatch h), List.nodup_nil⟩

/-- So it holds in every run. -/
theorem exec_kept (names : ℕ → String) (inputs : List RuntimeInput) : Kept (runtime.exec (atStart names) inputs) :=
  Machine.exec_invariant (fun s input h => h.stepped (step_stepped s input)) (kept_atStart names) inputs

end NanoDelta.Runtime.Commands
